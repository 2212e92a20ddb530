import SwitchQos.Proofs.Provision.ProfileNames

namespace SwitchQos

/-! A run told stage by stage, one stage for each node of the configuration. The stages
make up the report and all that is added to the log of the store, and when a port node is
reached, its names stand for what the stages before it have created. -/

open Exchange

/-! ## Visits to ports -/

def Visit.phase (visit : Visit) : PhaseReport :=
  ⟨"port " ++ visit.port.name, visit.ledger.map Entry.outcome⟩

def Visit.operations (visit : Visit) : List Operation :=
  visit.ledger.flatMap Entry.operations

section Visits

variable {Whole : Type} (provisioner : Provisioner) (whole : Exchange Whole)
  (origin : Memory) (names : Names) (node : PortNode)

/-- The visit is accounted for, in a run from `origin`: there is an entry for each item of
the port node, and where a tree is built the groups of the port have been read. -/
def Visit.Accounted (visit : Visit) : Prop :=
  (node.tree.isSome → whole.Reads origin provisioner.scheduler visit.port visit.found) ∧
    List.Forall₂ Errand.Settles
      (node.errands provisioner.scheduler names origin.contents visit.port
      visit.found) visit.ledger

structure Visits (before : Memory) (visits : List Visit) (phases : List PhaseReport)
    (after : Memory) : Prop where
  accounted : ∀ visit ∈ visits, visit.Accounted provisioner whole origin names node
  phases : phases = visits.map Visit.phase
  log : after.log = before.log ++ visits.flatMap Visit.operations
  descends : origin.contents.DescendsFrom after.contents

end Visits

section Visits

variable {Whole : Type} {whole : Exchange Whole}
  {provisioner : Provisioner} {names : Names} {origin before after : Memory}
  {node : PortNode}

theorem visits_nothing (log : after.log = before.log)
    (descends : origin.contents.DescendsFrom after.contents) :
    Visits provisioner whole origin names node before [] [] after :=
  ⟨by simp, rfl, log.trans (List.append_nil _).symm, descends⟩

theorem Visits.append {middle : Memory} {early late : List Visit}
    {first last : List PhaseReport}
    (left : Visits provisioner whole origin names node before early first middle)
    (right : Visits provisioner whole origin names node middle late last after) :
    Visits provisioner whole origin names node before (early ++ late)
      (first ++ last) after where
  accounted := List.forall_mem_append.mpr ⟨left.accounted, right.accounted⟩
  phases := by rw [left.phases, right.phases, List.map_append]
  log := by rw [right.log, left.log, List.flatMap_append, List.append_assoc]
  descends := right.descends

end Visits

namespace Provisioner

variable {Whole : Type} {whole : Exchange Whole}
  {provisioner : Provisioner} {names : Names} {origin before after : Memory}
  {node : PortNode} {phases : List PhaseReport}

theorem exists_initEach_visits {ports : List Port}
    (descends : origin.contents.DescendsFrom before.contents)
    (includes : whole.Includes Memory.responder origin
      (provisioner.initEach names node ports) before)
    (ends : (provisioner.initEach names node ports).Ends Memory.responder
      before phases after) :
    ∃ visits, Visits provisioner whole origin names node before visits phases after := by
  induction ports generalizing before phases with
  | nil =>
      rcases ends_done_iff.mp ends with ⟨rfl, rfl⟩
      exact ⟨[], visits_nothing rfl descends⟩
  | cons port rest induction =>
      rcases ends_bind_iff.mp ends with ⟨first, middle, own, ends⟩
      have later := (includes.rest own).part
      have here := includes.part.part
      rcases ends_bind_iff.mp own with ⟨report, _, initialised, done⟩
      rcases ends_done_iff.mp done with ⟨rfl, rfl⟩
      rcases ends_bind_iff.mp ends with ⟨others, _, collected, done⟩
      rcases ends_done_iff.mp done with ⟨rfl, rfl⟩
      rcases exists_initPort_accounts descends here initialised with
        ⟨found, ledger, reads, accounts, rfl, descendsMiddle⟩
      have one : Visits provisioner whole origin names node before [⟨port, found, ledger⟩]
          [⟨"port " ++ port.name, ledger.map Entry.outcome⟩] middle :=
        ⟨List.forall_mem_singleton.mpr ⟨reads, accounts.settled⟩, rfl,
          accounts.log.trans (congrArg _ (List.append_nil _).symm), descendsMiddle⟩
      rcases induction descendsMiddle later collected with ⟨visits, more⟩
      exact ⟨_, one.append more⟩

theorem exists_initListed_visits {polls : Nat} {tracker : PortTracker}
    (descends : origin.contents.DescendsFrom before.contents)
    (includes : whole.Includes Memory.responder origin
      (provisioner.initListed names node polls tracker) before)
    (ends : (provisioner.initListed names node polls tracker).Ends
      Memory.responder before phases after) :
    ∃ visits, Visits provisioner whole origin names node before visits phases after := by
  induction polls generalizing before tracker phases with
  | zero => cases ends
  | succ polls induction =>
      rw [initListed, bind_eq_bind] at includes ends
      rcases ends_bind_iff.mp ends with ⟨reply, listed, asked, ends⟩
      have rest := includes.rest asked
      rcases ends_askPorts_iff.mp asked with ⟨-, isListed⟩
      have sameLog : listed.log = before.log := isListed ▸ Memory.log_listPorts
      have descendsListed : origin.contents.DescendsFrom listed.contents := by
        rw [isListed]
        exact (@Memory.contents_listPorts before _).symm ▸ descends
      have listing : Visits provisioner whole origin names node before [] [] listed :=
        visits_nothing sameLog descendsListed
      cases reply with
      | error cause =>
          rcases induction descendsListed rest ends with ⟨visits, later⟩
          exact ⟨_, listing.append later⟩
      | ok ports =>
          dsimp only at rest ends
          split at ends
          · rcases ends_done_iff.mp ends with ⟨rfl, rfl⟩
            exact ⟨[], listing⟩
          · rename_i goesOn
            rw [if_neg goesOn] at rest
            rcases ends_bind_iff.mp ends with ⟨first, middle, each, ends⟩
            rcases ends_bind_iff.mp ends with ⟨others, last, more, ends⟩
            rcases ends_done_iff.mp ends with ⟨rfl, rfl⟩
            rcases exists_initEach_visits descendsListed rest.part each with ⟨early, own⟩
            rcases induction own.descends (rest.rest each).part more with ⟨late, later⟩
            exact ⟨_, listing.append (own.append later)⟩

end Provisioner

/-! ## Stages -/

/-- What a node of a configuration has come to: the creations of a global node, or the
visits of a port node to ports. -/
inductive Stage where
  /-- The outcomes of the maps with all operations that they took, and the
  ledger of profiles. -/
  | globals (node : GlobalsNode) (maps : List Outcome) (filled : List Operation)
      (profiles : List Entry)
  | ports (interfaceClass : InterfaceClass) (node : PortNode) (visits : List Visit)

namespace Stage

def node : Stage → ConfigNode
  | globals node _ _ _ => .globals node
  | ports interfaceClass node _ => .ports interfaceClass node

def phases : Stage → List PhaseReport
  | globals _ maps _ profiles => [⟨"switch globals", maps ++ profiles.map Entry.outcome⟩]
  | ports _ _ visits => visits.map Visit.phase

def operations : Stage → List Operation
  | globals _ _ filled profiles => filled ++ profiles.flatMap Entry.operations
  | ports _ _ visits => visits.flatMap Visit.operations

def recorded : Stage → List (ProfileNode × Status)
  | globals node _ _ profiles => node.profiles.zip (profiles.map Entry.status)
  | ports _ _ _ => []

/-- The stage is accounted for, in a run from `origin` that ends with these contents. -/
def Accounted {Whole : Type} (provisioner : Provisioner) (whole : Exchange Whole)
    (origin : Memory) (contents : Contents)
    (known : List (ProfileNode × Status)) : Stage → Prop
  | globals node maps filled profiles =>
      maps.length = node.maps.length ∧ Adding ObjectClass.ofMaps filled ∧
        List.Forall₂ Errand.Settles
          (node.profiles.map (·.errand provisioner.switchId)) profiles
  | ports _ node visits =>
      ∃ names : Names, names.Tells provisioner.switchId known contents ∧
      ∀ visit ∈ visits, visit.Accounted provisioner whole origin names node

end Stage

namespace Provisioner

section Stages

variable {Whole : Type} {whole : Exchange Whole}
  {provisioner : Provisioner} {names : Names} {origin before after : Memory}
  {recorded : List (ProfileNode × Status)}

theorem exists_initGlobals_stage {node : GlobalsNode}
    {phase : PhaseReport} {later : Names}
    (tells : names.Tells provisioner.switchId recorded before.contents)
    (descends : origin.contents.DescendsFrom before.contents)
    (ends : (provisioner.initGlobals names node).Ends Memory.responder before
      (phase, later) after) :
    ∃ maps filled profiles, [phase] = (Stage.globals node maps filled profiles).phases ∧
      after.log = before.log ++ (Stage.globals node maps filled profiles).operations ∧
      (∀ contents known, (Stage.globals node maps filled profiles).Accounted
        provisioner whole origin contents known) ∧
      later.Tells provisioner.switchId
        (recorded ++ (Stage.globals node maps filled profiles).recorded) after.contents ∧
      origin.contents.DescendsFrom after.contents := by
  rcases ends_bind_iff.mp ends with ⟨⟨maps, named⟩, middle, mapsEnd, last⟩
  rcases ends_bind_iff.mp last with ⟨⟨outcomes, _⟩, _, profilesEnd, given⟩
  rcases ends_done_iff.mp given with ⟨same, rfl⟩
  cases same
  have adding := @submits_createMaps provisioner names node.maps
  have filling : (provisioner.createMaps node.maps names).Submits
      fun batch => ∀ operation ∈ batch, Adding ObjectClass.ofMaps [operation] :=
    adding.mono fun batch adds operation member =>
      List.forall_mem_singleton.mpr (adds operation member)
  rcases Memory.logs_of_submits filling mapsEnd.reaches with ⟨filled, log, adds⟩
  have apart : ∀ objectClass ∈ ObjectClass.ofMaps, objectClass.ofTree = false := by
    rintro _ ⟨mapType, rfl | rfl⟩ <;> rfl
  have descendsMiddle := Memory.kept_of_submits adding (fun _ adds operation member =>
    Contents.DescendsFrom.keeps (adds.keepsPlaces apart operation member))
      mapsEnd.reaches descends
  have kept :=
    (tells.of_reaches (adding.mono fun _ => Adding.sparesProfiles) mapsEnd.reaches).congr
    (passes_createMaps mapsEnd).2
  rcases exists_accounts brings_createProfiles (submits_createProfiles.mono fun _ =>
    Adding.keepsPlaces (by rintro _ rfl; rfl)) descendsMiddle profilesEnd with
    ⟨profiles, accounts, rfl, descendsAfter⟩
  refine ⟨maps, filled, profiles, rfl, ?_, fun _ _ => ⟨length_of_createMaps mapsEnd,
    fun operation member =>
      adds operation member operation List.mem_cons_self, accounts.settled⟩,
    ?_, descendsAfter⟩
  · rw [accounts.log, log, List.append_assoc]
    rfl
  · have told := tells_createProfiles kept profilesEnd
    rwa [List.map_map] at told

theorem submits_initPort_sparing {port : Port} {node : PortNode} :
    (provisioner.initPort names node port).Submits
      fun batch => ∀ operation ∈ batch, operation.SparesProfiles := by
  refine (Footprint.parallel_initPort provisioner names node port).submits.mono ?_
  rintro batch ⟨object, other, sets, rfl⟩ operation member
  rw [List.mem_singleton.mp member]
  exact sets.sparesProfiles

theorem submits_runNodes_sparing {nodes : List ConfigNode} :
    (provisioner.runNodes nodes names).Submits
      fun batch => ∀ operation ∈ batch, operation.SparesProfiles := by
  exact submits_runNodes (fun _ _ _ => submits_initGlobals.mono fun _ =>
    Adding.sparesProfiles) fun _ _ _ => submits_initPort_sparing

theorem accounted_cons {first : Stage} {rest : List Stage} {contents : Contents}
    (own : first.Accounted provisioner whole origin contents recorded)
    (others : ∀ earlier stage later, rest = earlier ++ stage :: later →
      stage.Accounted provisioner whole origin contents
        (recorded ++ first.recorded ++ earlier.flatMap Stage.recorded))
    (earlier : List Stage) (stage : Stage) (later : List Stage)
    (split : first :: rest = earlier ++ stage :: later) :
    stage.Accounted provisioner whole origin contents
      (recorded ++ earlier.flatMap Stage.recorded) := by
  cases earlier with
  | nil =>
      cases split
      rwa [List.flatMap_nil, List.append_nil]
  | cons _ earlier =>
      rcases List.cons.inj split with ⟨rfl, same⟩
      rw [List.flatMap_cons, ← List.append_assoc]
      exact others earlier stage later same

theorem exists_stages {nodes : List ConfigNode} {phases : List PhaseReport}
    (tells : names.Tells provisioner.switchId recorded before.contents)
    (descends : origin.contents.DescendsFrom before.contents)
    (includes : whole.Includes Memory.responder origin
      (provisioner.runNodes nodes names) before)
    (ends : (provisioner.runNodes nodes names).Ends Memory.responder
      before phases after) :
    ∃ stages : List Stage, stages.map Stage.node = nodes ∧
    phases = stages.flatMap Stage.phases ∧
      after.log = before.log ++ stages.flatMap Stage.operations ∧
      ∀ earlier stage later, stages = earlier ++ stage :: later →
        stage.Accounted provisioner whole origin after.contents
          (recorded ++ earlier.flatMap Stage.recorded) := by
  induction nodes generalizing names recorded before phases with
  | nil =>
      rcases ends_done_iff.mp ends with ⟨rfl, rfl⟩
      exact ⟨[], rfl, rfl, (List.append_nil _).symm, by simp⟩
  | cons node rest induction =>
      -- What the names tell here is so at the end as well, since profiles
      -- only become more.
      have kept := tells.of_reaches submits_runNodes_sparing ends.reaches
      cases node with
      | globals globals =>
          rcases ends_bind_iff.mp ends with ⟨⟨phase, later⟩, middle, own, more⟩
          have restIncludes := (includes.rest own).part
          rcases ends_bind_iff.mp more with ⟨others, _, restEnds, done⟩
          rcases ends_done_iff.mp done with ⟨rfl, rfl⟩
          rcases @exists_initGlobals_stage _ whole _ _ _ _ _ _ _ _ _ tells
              descends own with
            ⟨maps, filled, profiles, samePhase, log, accounted, told, descendsMiddle⟩
          rcases induction told descendsMiddle restIncludes restEnds with
            ⟨stages, rfl, rfl, restLog, chain⟩
          refine ⟨.globals globals maps filled profiles :: stages, rfl, ?_, ?_, ?_⟩
          · rw [List.flatMap_cons, ← samePhase, List.singleton_append]
          · rw [restLog, log, List.flatMap_cons, List.append_assoc]
          · exact accounted_cons (accounted _ _) chain
      | ports interfaceClass node =>
          rcases ends_bind_iff.mp ends with ⟨own, middle, initialised, more⟩
          have restIncludes := (includes.rest initialised).part
          rcases ends_bind_iff.mp more with ⟨others, _, restEnds, done⟩
          rcases ends_done_iff.mp done with ⟨rfl, rfl⟩
          rcases exists_initListed_visits descends includes.part initialised with
            ⟨visits, visited⟩
          have told :=
            tells.of_reaches (submits_each_initPort fun _ => submits_initPort_sparing)
            initialised.reaches
          rcases induction told visited.descends restIncludes restEnds with
            ⟨stages, rfl, rfl, restLog, chain⟩
          refine ⟨.ports interfaceClass node visits :: stages, rfl, ?_, ?_, ?_⟩
          · rw [List.flatMap_cons, visited.phases]
            rfl
          · rw [restLog, visited.log, List.flatMap_cons, List.append_assoc]
            rfl
          · exact accounted_cons ⟨names, kept, visited.accounted⟩
              (by simpa only [Stage.recorded, List.append_nil] using chain)

end Stages

end Provisioner

end SwitchQos
