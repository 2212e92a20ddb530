import SwitchQos.Proofs.Provision.Errands
import SwitchQos.Proofs.Provision.ProfileTexts
import SwitchQos.Proofs.Provision.RerunAgreement

namespace SwitchQos

/-! The report of a provisioning and the log of the store agree. Both are read
off one ledger, which has an entry for every declared item: an operation for each
that was applied, and none for those that were skipped or have failed, at
whatever step they did. -/

open Exchange

/-! ## Places -/

theorem ObjectClass.has_of_mem_locators {objectClass : ObjectClass} :
    ∀ attr ∈ objectClass.locators, objectClass.Has attr := by
  cases objectClass with
  | schedulerGroup | queue => decide
  | _ => exact fun _ => False.elim ∘ List.not_mem_nil

theorem keepsPlaces_set {objectClass : ObjectClass} {values : List (String × StoreValue)}
    (hasAll : ∀ row ∈ values, objectClass.Has row.1)
    (spares : ∀ attr ∈ objectClass.locators, attr ∉ objectClass.keyAttrs →
      Directory.findRow attr values = none) :
    (Operation.mk .set (objectClass.assemble values)).KeepsPlaces := by
  have plain : (objectClass.assemble values).IsPlain := ObjectClass.keyData_assemble
  refine ⟨plain, objectClass, ObjectClass.classPath_assemble, .inr ⟨rfl, ?_⟩⟩
  intro attr locates noKey
  change (objectClass.assemble values).lookup (objectClass.pathOf attr) = none
  rw [plain.lookup, ObjectClass.get?_assemble
    (ObjectClass.has_of_mem_locators attr locates) hasAll]
  exact spares attr locates noKey

theorem Footprint.Sets.keepsPlaces {footprint : Footprint} {object other : StoreObject}
    (sets : footprint.Sets object other) : (Operation.mk .set object).KeepsPlaces := by
  cases sets with
  | groupProfile | groupChildren =>
      refine keepsPlaces_set (by simp; decide) ?_
      simp [ObjectClass.locators, ObjectClass.keyAttrs, Directory.findRow]
  | queueProfile =>
      refine keepsPlaces_set (by simp [QueueKey.attrs]; decide) ?_
      simp [ObjectClass.locators, ObjectClass.keyAttrs, QueueKey.attrs, Directory.findRow]
  | @portMap direction mapType id _ has _ =>
      have others : direction.objectClass.Has "port-id" ∧
          direction.objectClass.Has "switch-id" := by
        cases direction <;> decide
      have none : direction.objectClass.locators = [] := by cases direction <;> rfl
      exact keepsPlaces_set (by simpa using ⟨has, others⟩) (by simp [none])

theorem Footprint.submits_keepsPlaces {Result : Type} {footprint : Footprint}
    {exchange other : Exchange Result}
    (parallel : exchange.Parallel footprint.conduct other) :
    exchange.Submits fun batch => ∀ operation ∈ batch, operation.KeepsPlaces := by
  refine parallel.submits.mono ?_
  rintro batch ⟨object, other, sets, rfl⟩ operation member
  rw [List.mem_singleton.mp member]
  exact sets.keepsPlaces

theorem Adding.keepsPlaces {classes : Set ObjectClass} {batch : List Operation}
    (apart : ∀ objectClass ∈ classes, objectClass.ofTree = false)
    (adding : Adding classes batch) :
    ∀ operation ∈ batch, operation.KeepsPlaces := by
  intro operation member
  rcases adding operation member with ⟨creates, plain, objectClass, isOne, isOf⟩
  exact ⟨plain, objectClass, isOf, .inl ⟨creates, apart objectClass isOne⟩⟩

/-! ## Ledgers in memory -/

/-- The ledger has an entry for every errand, and the log has grown by what it says. -/
structure Accounts (errands : List Errand) (before : Memory) (ledger : List Entry)
    (after : Memory) : Prop where
  settled : List.Forall₂ Errand.Settles errands ledger
  log : after.log = before.log ++ ledger.flatMap Entry.operations

theorem Accounts.append {early late : List Errand} {before middle after : Memory}
    {first last : List Entry} (left : Accounts early before first middle)
    (right : Accounts late middle last after) :
    Accounts (early ++ late) before (first ++ last) after where
  settled := List.rel_append left.settled right.settled
  log := by rw [right.log, left.log, List.flatMap_append, List.append_assoc]

theorem exists_accounts {Result : Type} {exchange : Exchange Result}
    {shown : Result → List Outcome} {start : Contents} {errands : List Errand}
    {before after : Memory} {result : Result}
    (brings : exchange.Brings start.replies fun operations result => ∃ ledger,
      List.Forall₂ Errand.Settles errands ledger ∧
        operations = ledger.flatMap Entry.operations ∧
        shown result = ledger.map Entry.outcome)
    (submits : exchange.Submits fun batch => ∀ operation ∈ batch, operation.KeepsPlaces)
    (descends : start.DescendsFrom before.contents)
    (ends : exchange.Ends Memory.responder before result after) :
    ∃ ledger, Accounts errands before ledger after ∧
    shown result = ledger.map Entry.outcome ∧
      start.DescendsFrom after.contents := by
  rcases Memory.logs_of_ends brings submits descends ends with
    ⟨_, log, ⟨ledger, settled, rfl, same⟩, descendsAfter⟩
  exact ⟨ledger, ⟨settled, log⟩, same, descendsAfter⟩

def Exchange.Reads {Result : Type} (exchange : Exchange Result) (before : Memory)
    (scheduler : Scheduler) (port : Port)
    (found : Except ProvisionError GroupIndex) : Prop :=
  ∃ start later, exchange.Includes Memory.responder before
    (scheduler.readGroups port).run start ∧
    (scheduler.readGroups port).run.Ends Memory.responder start found later

def Entry.Failed (entry : Entry) : Prop := ∃ error, entry.verdict = .failed error

theorem Entry.isFailure_outcome {entry : Entry} :
    entry.outcome.isFailure = true ↔ entry.Failed := by
  rcases entry with ⟨target, verdict⟩
  cases verdict <;> simp [outcome, status, Outcome.isFailure, Failed]

theorem PhaseReport.succeeded_iff {name : String} {ledger : List Entry} :
    (mk name (ledger.map Entry.outcome)).succeeded = true ↔
    ∀ entry ∈ ledger, ¬entry.Failed := by
  simp only [succeeded, failures, List.isEmpty_iff, List.filter_eq_nil_iff,
    List.forall_mem_map, Entry.isFailure_outcome]

/-! ## Profiles -/

def ProfileNode.errand (node : ProfileNode) (switchId : Nat) : Errand where
  target := "scheduler profile " ++ node.tag
  plan :=
    match schedulerProfile switchId node.attrTexts with
    | .ok profile => .submit {⟨.create, profile.data⟩}
    | .error cause => .fail (.codec cause)

section Profiles

open SwitchQos.Task

variable {start : Contents} {scheduler : Scheduler}
  {provisioner : Provisioner} {names : Names}

theorem exists_renders_of_performAll {switchId : Nat} {node : ProfileNode}
    {profile : Authored} {contents after : Contents} {rules : List FailureRule}
    {answers : List StoreObject}
    (built : schedulerProfile switchId node.attrTexts = .ok profile)
    (performed : contents.performAll rules [⟨.create, profile.data⟩] =
      .ok (answers, after)) :
    ∃ stored ∈ after.objects, ∃ id, stored.Renders switchId node id ∧
      answers = [stored.answer .schedulerProfile] ∧
      Scheduler.readId ("scheduler profile " ++ node.tag)
        (stored.answer .schedulerProfile) = .ok id := by
  rcases Contents.performAll_singleton_eq_ok_iff.mp performed with ⟨_, first, rfl⟩
  rcases Contents.perform_eq_ok_iff.mp first with
    ⟨-, objectClass, stored, isOf, carried, rfl⟩
  cases ObjectClass.path_injective ((plain_schedulerProfile built).2.symm.trans isOf)
  rcases Contents.create_eq_ok_iff.mp carried with ⟨-, completed, -, -, rfl⟩
  rcases exists_renders built completed with ⟨id, renders⟩
  exact ⟨stored, List.mem_append_right _ (List.mem_singleton.mpr rfl), id, renders, rfl,
    (Scheduler.readId_eq_ok_iff renders.classPath).mpr ⟨renders.fits, renders.hasId⟩⟩

theorem brings_createProfile (node : ProfileNode) :
    (scheduler.createProfile node.tag node.attrTexts).run.Brings start.replies
      (node.errand scheduler.switchId).plan.ComesTo := by
  unfold Scheduler.createProfile ProfileNode.errand
  dsimp only
  cases built : schedulerProfile scheduler.switchId node.attrTexts with
  | error cause => exact ⟨.fail _, rfl⟩
  | ok profile =>
      rw [Scheduler.run_createObject]
      refine ⟨fun answers confirmed => ?_, fun cause => ⟨.refused _ _, rfl⟩⟩
      rcases confirmed with ⟨memory, contents, -, performed⟩
      rcases exists_renders_of_performAll built performed with
        ⟨stored, -, id, -, rfl, read⟩
      dsimp only [Brings]
      rw [read]
      exact ⟨_, .applied rfl, rfl⟩

theorem brings_createProfiles {nodes : List ProfileNode} :
    (provisioner.createProfiles nodes names).Brings start.replies fun operations result =>
      ∃ ledger, List.Forall₂ Errand.Settles
        (nodes.map (·.errand provisioner.switchId)) ledger ∧
        operations = ledger.flatMap Entry.operations ∧
        result.1 = ledger.map Entry.outcome := by
  induction nodes generalizing names with
  | nil => exact ⟨[], .nil, rfl, rfl⟩
  | cons node rest induction =>
      refine (brings_createProfile node).bind fun operations result comes => ?_
      rcases comes.exists_entry ("scheduler profile " ++ node.tag) with
        ⟨entry, settles, rfl, shown⟩
      refine Brings.map (fun result => (_ :: result.1, result.2)) (induction.mono ?_)
      rintro _ ⟨outcomes, last⟩ ⟨ledger, settled, rfl, rfl⟩
      exact ⟨entry :: ledger, .cons settles settled, rfl, congrArg (· :: _) shown⟩

theorem brings_createAllProfiles {nodes : List GlobalsNode} :
    (provisioner.createAllProfiles nodes names).Brings start.replies
      fun operations result =>
      ∃ ledger, List.Forall₂ Errand.Settles
          (nodes.flatMap fun node =>
            node.profiles.map (·.errand provisioner.switchId)) ledger ∧
        operations = ledger.flatMap Entry.operations ∧
        result.1 = ledger.map Entry.outcome := by
  induction nodes generalizing names with
  | nil => exact ⟨[], .nil, rfl, rfl⟩
  | cons node rest induction =>
      refine brings_createProfiles.bind ?_
      rintro _ ⟨outcomes, middle⟩ ⟨first, settled, rfl, rfl⟩
      refine Brings.map (fun result => (_ ++ result.1, result.2)) (induction.mono ?_)
      rintro _ ⟨outcomes, last⟩ ⟨others, settledToo, rfl, rfl⟩
      refine ⟨first ++ others, List.rel_append settled settledToo, ?_, ?_⟩
      · rw [List.flatMap_append]
      · rw [List.map_append]

theorem exists_createAllProfiles_accounts {nodes : List GlobalsNode}
    {before after : Memory} {outcomes : List Outcome} {last : Names}
    (descends : start.DescendsFrom before.contents)
    (ends : (provisioner.createAllProfiles nodes names).Ends Memory.responder before
      (outcomes, last) after) :
    ∃ ledger, Accounts
        (nodes.flatMap fun node =>
          node.profiles.map (·.errand provisioner.switchId)) before ledger after ∧
      outcomes = ledger.map Entry.outcome ∧ start.DescendsFrom after.contents :=
  exists_accounts brings_createAllProfiles (Provisioner.submits_createAllProfiles.mono
    fun _ => Adding.keepsPlaces (by rintro _ rfl; rfl)) descends ends

end Profiles

/-! ## Ports -/

def PortNode.errands (node : PortNode) (scheduler : Scheduler) (names : Names)
    (start : Contents) (port : Port)
    (found : Except ProvisionError GroupIndex) : List Errand :=
  mapErrands scheduler.switchId names port node ++ node.tree.toList.flatMap fun tree =>
    scheduler.treeErrands names start port tree found

section Ports

variable {Whole : Type} {whole : Exchange Whole} {origin before after : Memory}
  {start : Contents} {scheduler : Scheduler} {names : Names} {port : Port}
  {outcomes : List Outcome}

theorem exists_bindPortMaps_accounts {switchId : Nat} {node : PortNode}
    (descends : start.DescendsFrom before.contents)
    (ends : (bindPortMaps switchId names port node).Ends Memory.responder before
      outcomes after) :
    ∃ ledger, Accounts (mapErrands switchId names port node) before ledger after ∧
      outcomes = ledger.map Entry.outcome ∧ start.DescendsFrom after.contents := by
  have submits := Footprint.submits_keepsPlaces
    (@Footprint.parallel_bindPortMaps names node port Set.univ switchId)
  rw [bindPortMaps_eq] at submits ends
  exact exists_accounts (brings_ledger does_mapBindings) submits descends ends

theorem exists_applyTree_accounts {tree : SchedulerTree}
    (descends : start.DescendsFrom before.contents)
    (includes : whole.Includes Memory.responder origin
      (scheduler.applyTree names port tree) before)
    (ends : (scheduler.applyTree names port tree).Ends Memory.responder before
      outcomes after) :
    ∃ found ledger, whole.Reads origin scheduler port found ∧
      (∀ index, found = .ok index → index.StoredIn start port.ifindex) ∧
      Accounts (scheduler.treeErrands names start port tree found) before ledger after ∧
      outcomes = ledger.map Entry.outcome ∧ start.DescendsFrom after.contents := by
  let footprint := Footprint.ofPort scheduler.switchId names {} port Set.univ
  rw [Scheduler.applyTree_eq] at includes ends
  rcases ends_bind_iff.mp ends with ⟨found, middle, read, built⟩
  -- To read the groups takes no operation, so the ledger is that of the bindings.
  have reading := Footprint.submits_keepsPlaces
    (@Footprint.parallel_readGroups footprint scheduler port rfl rfl)
  rcases Memory.logs_of_ends Scheduler.looks_readGroups reading descends read with
    ⟨_, log, ⟨rfl, stored⟩, descendsMiddle⟩
  have building :=
    Footprint.submits_keepsPlaces (@Footprint.parallel_treeBindings footprint
    scheduler port names names tree found rfl rfl (fun _ _ _ _ _ _ => trivial)
    fun name _ => Footprint.renames_self names.profiles name)
  rcases exists_accounts (brings_ledger does_treeBindings) building
      descendsMiddle built with
    ⟨ledger, accounts, same, descendsAfter⟩
  refine ⟨found, ledger, ⟨before, middle, includes.part, read⟩, stored,
    ⟨accounts.settled, ?_⟩, same, descendsAfter⟩
  rw [accounts.log, log, List.append_nil]

namespace Provisioner

variable {provisioner : Provisioner}

theorem exists_initPort_accounts {node : PortNode} {report : PhaseReport}
    (descends : start.DescendsFrom before.contents)
    (includes : whole.Includes Memory.responder origin
      (provisioner.initPort names node port) before)
    (ends : (provisioner.initPort names node port).Ends Memory.responder
      before report after) :
    ∃ found ledger, (node.tree.isSome →
      whole.Reads origin provisioner.scheduler port found) ∧
      Accounts (node.errands provisioner.scheduler names start port found)
        before ledger after ∧
      report = ⟨"port " ++ port.name, ledger.map Entry.outcome⟩ ∧
      start.DescendsFrom after.contents := by
  rcases ends_bind_iff.mp ends with ⟨maps, middle, bound, ends⟩
  rcases ends_bind_iff.mp ends with ⟨built, last, applied, ends⟩
  rcases ends_done_iff.mp ends with ⟨rfl, rfl⟩
  have rest := (includes.rest bound).part
  rcases exists_bindPortMaps_accounts descends bound with
    ⟨first, mapAccounts, rfl, descendsMiddle⟩
  unfold PortNode.errands
  cases declared : node.tree with
  | none =>
      rw [declared] at applied
      rcases ends_done_iff.mp applied with ⟨rfl, rfl⟩
      refine ⟨.ok {}, first, by simp, ?_, ?_, descendsMiddle⟩
      · rwa [Option.toList_none, List.flatMap_nil, List.append_nil]
      · rw [List.append_nil]
  | some tree =>
      rw [declared] at applied rest
      rcases exists_applyTree_accounts descendsMiddle rest applied with
        ⟨found, second, reads, -, treeAccounts, rfl, descendsAfter⟩
      refine ⟨found, first ++ second, fun _ =>
        reads, ?_, by rw [List.map_append], descendsAfter⟩
      rw [Option.toList_some, List.flatMap_singleton]
      exact mapAccounts.append treeAccounts

end Provisioner

end Ports

/-! ## Interfaces -/

def Scheduler.interfaceErrands (scheduler : Scheduler) (names : Names) (start : Contents)
    (tree : Option SchedulerTree) (port : Port)
    (found : Except ProvisionError GroupIndex) :
    List Errand :=
  match tree with
  | some tree => scheduler.treeErrands names start port tree found
  | none => [⟨port.name, .skip "no front-panel scheduler tree configured"⟩]

structure Visit where
  port : Port
  found : Except ProvisionError GroupIndex
  ledger : List Entry

def Visit.report (visit : Visit) : PhaseReport :=
  ⟨"interface " ++ visit.port.name, visit.ledger.map Entry.outcome⟩

theorem Memory.untouched_of_ends {Result : Type} {exchange : Exchange Result}
    {before after : Memory} {result : Result} (submits : exchange.Submits fun _ => False)
    (ends : exchange.Ends responder before result after) :
    after.contents = before.contents ∧ after.log = before.log := by
  refine submits.kept (fun memory : Memory =>
      memory.contents = before.contents ∧ memory.log = before.log) ?_ ?_ ?_
        ends.reaches ⟨rfl, rfl⟩
  · exact fun _ _ kept => ⟨contents_query.trans kept.1, log_query.trans kept.2⟩
  · exact fun _ _ impossible => impossible.elim
  · exact fun _ _ kept => ⟨contents_listPorts.trans kept.1, log_listPorts.trans kept.2⟩

namespace Provisioner

section Interfaces

variable {Whole : Type} {whole : Exchange Whole} {origin before after : Memory}
  {start : Contents} {provisioner : Provisioner} {names : Names}
  {tree : Option SchedulerTree}

def Accounted (provisioner : Provisioner) (whole : Exchange Whole) (origin : Memory)
    (names : Names) (tree : Option SchedulerTree) (visit : Visit) : Prop :=
  (tree.isSome → whole.Reads origin provisioner.scheduler visit.port visit.found) ∧
    List.Forall₂ Errand.Settles
      (provisioner.scheduler.interfaceErrands names origin.contents tree
      visit.port visit.found) visit.ledger

theorem exists_initInterface_visit {port : Port} {report : PhaseReport}
    (descends : origin.contents.DescendsFrom before.contents)
    (includes : whole.Includes Memory.responder origin
      (provisioner.initInterface names tree port) before)
    (ends : (provisioner.initInterface names tree port).Ends Memory.responder
      before report after) :
    ∃ visit, provisioner.Accounted whole origin names tree visit ∧ visit.port = port ∧
      report = visit.report ∧
      after.log = before.log ++ visit.ledger.flatMap Entry.operations ∧
      origin.contents.DescendsFrom after.contents := by
  cases tree with
  | none =>
      rcases ends_done_iff.mp ends with ⟨rfl, rfl⟩
      refine ⟨⟨port, .ok {}, [⟨port.name, .skipped _⟩]⟩,
        ⟨by simp, .cons ⟨rfl, .skip _⟩ .nil⟩, rfl, rfl,
        (List.append_nil _).symm, descends⟩
  | some tree =>
      rcases ends_bind_iff.mp ends with ⟨outcomes, last, applied, ends⟩
      rcases ends_done_iff.mp ends with ⟨rfl, rfl⟩
      rcases exists_applyTree_accounts descends includes.part applied with
        ⟨found, ledger, reads, -, accounts, rfl, descendsAfter⟩
      exact ⟨⟨port, found, ledger⟩, ⟨fun _ => reads, accounts.settled⟩, rfl,
        rfl, accounts.log, descendsAfter⟩

theorem exists_visits {ports : List Port} {phases : List PhaseReport}
    (descends : origin.contents.DescendsFrom before.contents)
    (includes : whole.Includes Memory.responder origin (collect ports fun port => do
      return [← provisioner.initInterface names tree port]) before)
    (ends : (collect ports fun port => do
      return [← provisioner.initInterface names tree port]).Ends
        Memory.responder before phases
      after) :
    ∃ visits : List Visit, ports = visits.map Visit.port ∧
      (∀ visit ∈ visits, provisioner.Accounted whole origin names tree visit) ∧
      phases = visits.map Visit.report ∧
      after.log = before.log ++ visits.flatMap fun visit =>
        visit.ledger.flatMap Entry.operations := by
  induction ports generalizing before phases with
  | nil =>
      rcases ends_done_iff.mp ends with ⟨rfl, rfl⟩
      exact ⟨[], rfl, by simp, rfl, (List.append_nil _).symm⟩
  | cons port rest induction =>
      rcases ends_bind_iff.mp ends with ⟨first, middle, own, ends⟩
      have later := (includes.rest own).part
      have here := includes.part.part
      rcases ends_bind_iff.mp own with ⟨report, _, initialised, done⟩
      rcases ends_done_iff.mp done with ⟨rfl, rfl⟩
      rcases ends_bind_iff.mp ends with ⟨others, _, collected, done⟩
      rcases ends_done_iff.mp done with ⟨rfl, rfl⟩
      rcases exists_initInterface_visit descends here initialised with
        ⟨visit, accounted, rfl, rfl, log, descendsAfter⟩
      rcases induction descendsAfter later collected with
        ⟨visits, rfl, accountedToo, rfl, logAfter⟩
      refine ⟨visit :: visits, rfl,
        List.forall_mem_cons.mpr ⟨accounted, accountedToo⟩, rfl, ?_⟩
      rw [logAfter, log, List.flatMap_cons, List.append_assoc]

end Interfaces

/-! ## Reports -/

theorem succeeded_iff_of_visits {profiles : List Entry} {visits : List Visit} :
    (RunReport.mk (⟨"scheduler profiles", profiles.map Entry.outcome⟩ ::
      visits.map Visit.report)).succeeded = true ↔
        ∀ entry ∈ profiles ++ visits.flatMap Visit.ledger, ¬entry.Failed := by
  simp only [RunReport.succeeded, List.all_cons, Bool.and_eq_true, List.all_map,
    PhaseReport.succeeded_iff, List.all_eq_true, Function.comp_apply, Visit.report,
    List.forall_mem_append, List.mem_flatMap, forall_exists_index, and_imp]
  exact and_congr_right fun _ =>
    ⟨fun each entry visit isVisit => each visit isVisit entry,
    fun each visit isVisit entry => each entry visit isVisit⟩

/-- What a provisioning reports and what it adds to the log of the store are one
ledger, in order. Each declared item has an entry in it, which tells the single
operation by which the item was applied, and no operation if it was skipped or has
failed. The report is a success if no item has failed. This holds of a port, and of a
rerun that comes to a report. -/
theorem report_agrees_with_log {provisioner : Provisioner} {memory : Memory}
    (plain : ∀ stored ∈ memory.contents.objects, stored.IsPlain) :
    (∀ names node port, ∃ found ledger report after,
      (provisioner.initPort names node port).Ends Memory.responder memory report after ∧
      (node.tree.isSome → (provisioner.initPort names node port).Reads memory
        provisioner.scheduler port found) ∧
      Accounts (node.errands provisioner.scheduler names memory.contents port
        found) memory ledger after ∧
      report = ⟨"port " ++ port.name, ledger.map Entry.outcome⟩ ∧
      (report.succeeded = true ↔ ∀ entry ∈ ledger, ¬entry.Failed)) ∧
    ∀ config interfaces report after,
      (provisioner.initInterfaces config interfaces).run.Ends Memory.responder
        memory (.ok report) after →
      ∃ (visits : List Visit) (profiles : List Entry) (names : Names)
      (asked created : Memory),
        (resolveAll interfaces).run.Ends Memory.responder memory
          (.ok (visits.map Visit.port)) asked ∧
        (provisioner.createAllProfiles config.globals {}).Ends Memory.responder asked
          (profiles.map Entry.outcome, names) created ∧
        List.Forall₂ Errand.Settles (config.globals.flatMap fun node =>
          node.profiles.map (·.errand provisioner.switchId)) profiles ∧
        (∀ visit ∈ visits, provisioner.Accounted
          (provisioner.initInterfaces config interfaces).run
          memory names config.panelTree? visit) ∧
        report = ⟨⟨"scheduler profiles", profiles.map Entry.outcome⟩ ::
          visits.map Visit.report⟩ ∧
        after.log = memory.log ++
          (profiles ++ visits.flatMap Visit.ledger).flatMap Entry.operations ∧
        (report.succeeded = true ↔
          ∀ entry ∈ profiles ++ visits.flatMap Visit.ledger, ¬entry.Failed) := by
  have descends := Contents.descendsFrom_self plain
  refine ⟨fun names node port => ?_, fun config interfaces report after ends => ?_⟩
  · rcases (Footprint.parallel_initPort provisioner names node port).exists_ends
      Memory.responder memory with ⟨report, after, ends⟩
    rcases exists_initPort_accounts descends (includes_self _ _) ends with
      ⟨found, ledger, reads, accounts, rfl, -⟩
    exact ⟨found, ledger, _, after, ends, reads, accounts, rfl, PhaseReport.succeeded_iff⟩
  · rcases Task.ends_bind_iff.mp ends with
      ⟨ports, asked, resolved, later⟩ | ⟨_, -, impossible⟩
    · have includes := ((includes_self (provisioner.initInterfaces config interfaces).run
        memory).rest resolved).part
      rcases ends_bind_iff.mp later with ⟨given, last, provisioned, done⟩
      rcases ends_done_iff.mp done with ⟨same, rfl⟩
      cases same
      rcases ends_bind_iff.mp provisioned with ⟨⟨outcomes, names⟩, created, creates, rest⟩
      have visiting := (includes.rest creates).part
      rcases ends_bind_iff.mp rest with ⟨phases, _, collected, done⟩
      rcases ends_done_iff.mp done with ⟨rfl, rfl⟩
      -- The interfaces are resolved before anything is created.
      rcases Memory.untouched_of_ends submits_resolveAll resolved with
        ⟨sameContents, sameLog⟩
      have descendsAsked : memory.contents.DescendsFrom asked.contents := by
        rwa [sameContents]
      rcases exists_createAllProfiles_accounts descendsAsked creates with
        ⟨profiles, accounts, rfl, descendsCreated⟩
      rcases exists_visits descendsCreated visiting collected with
        ⟨visits, rfl, accounted, rfl, log⟩
      refine ⟨visits, profiles, names, asked, created, resolved, creates,
        accounts.settled, accounted, rfl, ?_, succeeded_iff_of_visits⟩
      rw [log, accounts.log, sameLog, List.flatMap_append, List.flatMap_assoc,
        List.append_assoc]
    · cases impossible

def refusingQueue : Memory :=
  ((Memory.ofTopology 0 ⟨[queuePort]⟩).toOption.getD (.new 0)).refuseAll .set .queue

/-- A profile is created and logged, and the queue refuses it. -/
theorem report_agrees_with_log_refusing :
    ∃ (after : Memory) (report : RunReport) (visits : List Visit) (profiles : List Entry),
      (∀ stored ∈ refusingQueue.contents.objects, stored.IsPlain) ∧
      (initInterfaces ⟨0, 3⟩ laterProfile ["Ethernet0"]).run.Ends
        Memory.responder refusingQueue (.ok report) after ∧
      (report.appliedCount, report.failureCount, after.log.length) = (1, 1, 1) ∧
      report = ⟨⟨"scheduler profiles", profiles.map Entry.outcome⟩ ::
        visits.map Visit.report⟩ ∧
      after.log = refusingQueue.log ++
        (profiles ++ visits.flatMap Visit.ledger).flatMap Entry.operations ∧
      (report.succeeded = true ↔
        ∀ entry ∈ profiles ++ visits.flatMap Visit.ledger, ¬entry.Failed) := by
  have plain : ∀ stored ∈ refusingQueue.contents.objects,
    stored.IsPlain := by decide +kernel
  obtain ⟨rerun, isRerun⟩ : ∃ rerun,
    (initInterfaces ⟨0, 3⟩ laterProfile ["Ethernet0"]).run.run
    Memory.responder refusingQueue = rerun := ⟨_, rfl⟩
  have counted : (rerun.1.bind Except.toOption).map (fun report : RunReport =>
      (report.appliedCount, report.failureCount, rerun.2.log.length)) =
        some (1, 1, 1) := by
    rw [← isRerun]
    decide +kernel
  rcases rerun with ⟨_ | _ | report, after⟩
  · cases counted
  · cases counted
  · rcases (@report_agrees_with_log ⟨0, 3⟩ _ plain).2 _ _ report after isRerun with
      ⟨visits, profiles, -, -, -, -, -, -, -, same, log, succeeded⟩
    exact ⟨after, report, visits, profiles, plain, isRerun,
      Option.some.inj counted, same, log, succeeded⟩

end Provisioner

end SwitchQos
