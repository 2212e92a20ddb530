import Mathlib.Data.List.TakeWhile
import SwitchQos.Proofs.Provision.Rerun

namespace SwitchQos

/-! A rerun on a single port binds what the run has bound. It takes the tree of the first
front-panel node, and by then has created the profiles of all nodes, so the two agree as
long as later nodes leave the port and the names in its tree alone. -/

open Exchange

/-! ## The first front-panel node -/

def ConfigNode.isPanel : ConfigNode → Bool
  | .ports .frontPanel _ => true
  | _ => false

def ConfigNode.panelTree? : ConfigNode → Option SchedulerTree
  | .ports .frontPanel node => node.tree
  | _ => none

namespace Config

variable {config : Config} {node : PortNode}

def beforePanel (config : Config) : List ConfigNode :=
  config.nodes.takeWhile fun node => !node.isPanel

def behindPanel (config : Config) : List ConfigNode :=
  (config.nodes.dropWhile fun node => !node.isPanel).tail

def panelTree? (config : Config) : Option SchedulerTree :=
  (config.portNode? .frontPanel).bind PortNode.tree

theorem not_mem_beforePanel : ConfigNode.ports .frontPanel node ∉ config.beforePanel := by
  intro member
  cases List.mem_takeWhile_imp member

theorem nodes_of_portNode? (first : config.portNode? .frontPanel = some node) :
    config.nodes = config.beforePanel ++ .ports .frontPanel node ::
      config.behindPanel := by
  rcases config with ⟨nodes⟩
  simp only [portNode?, beforePanel, behindPanel] at first ⊢
  induction nodes with
  | nil => cases first
  | cons other rest induction =>
      rw [List.findSome?_cons] at first
      cases other with
      | globals globals => exact congrArg _ (induction first)
      | ports interfaceClass other =>
          cases interfaceClass with
          | frontPanel =>
              cases first
              rfl
          | cpu => exact congrArg _ (induction first)

theorem globals_of_split {earlier later : List ConfigNode}
    {interfaceClass : InterfaceClass}
    (split : config.nodes = earlier ++ .ports interfaceClass node :: later) :
    config.globals = (mk earlier).globals ++ (mk later).globals := by
  rw [globals, split, List.filterMap_append]
  rfl

/-- What a rerun needs to do as the run has done: behind the first front-panel node
no other one declares a tree, and no profile is declared under a name in its tree.
The profiles before it name none of the ids that the store may hand out by then, and
these ids suffice. -/
structure Rerunnable (config : Config) (switchId firstId : Nat) : Prop where
  oneTree : ∀ node ∈ config.behindPanel, node.panelTree? = none
  settled : ∀ tree ∈ config.panelTree?, ∀ node ∈ (mk config.behindPanel).globals,
    ∀ profile ∈ node.profiles, profile.tag ∉ tree.profiles
  room : config.panelTree?.isSome → firstId + declared config.beforePanel ≤ countOfBits 64
  unclaimed : config.panelTree?.isSome → ∀ node ∈ (mk config.beforePanel).globals,
    ∀ profile ∈ node.profiles,
      profile.LeavesRange switchId firstId (firstId + declared config.beforePanel)

instance {switchId firstId : Nat} : Decidable (config.Rerunnable switchId firstId) :=
  decidable_of_iff
    ((∀ node ∈ config.behindPanel, node.panelTree? = none) ∧
      (∀ tree ∈ config.panelTree?, ∀ node ∈ (mk config.behindPanel).globals,
        ∀ profile ∈ node.profiles, profile.tag ∉ tree.profiles) ∧
      (config.panelTree?.isSome →
        firstId + declared config.beforePanel ≤ countOfBits 64) ∧
      (config.panelTree?.isSome → ∀ node ∈ (mk config.beforePanel).globals,
        ∀ profile ∈ node.profiles,
          profile.LeavesRange switchId firstId (firstId + declared config.beforePanel)))
    ⟨fun ⟨oneTree, settled, room, unclaimed⟩ => ⟨oneTree, settled, room, unclaimed⟩,
      fun ⟨oneTree, settled, room, unclaimed⟩ => ⟨oneTree, settled, room, unclaimed⟩⟩

theorem panelTree_cases (oneTree : ∀ node ∈ config.behindPanel, node.panelTree? = none) :
    (∃ node tree, config.nodes =
        config.beforePanel ++ .ports .frontPanel node :: config.behindPanel ∧
      node.tree = some tree ∧ config.panelTree? = some tree) ∨
    config.panelTree? = none ∧ ∀ node ∈ config.nodes, node.panelTree? = none := by
  rw [panelTree?]
  cases first : config.portNode? .frontPanel with
  | none =>
      refine .inr ⟨rfl, fun node member => ?_⟩
      have notFirst := List.findSome?_eq_none_iff.mp first node member
      rcases node with globals | ⟨⟨⟩, node⟩ <;> first | rfl | cases notFirst
  | some node =>
      have split := nodes_of_portNode? first
      rw [Option.bind_some]
      cases declares : node.tree with
      | some tree => exact .inl ⟨node, tree, split, declares, rfl⟩
      | none =>
          refine .inr ⟨rfl, fun other member => ?_⟩
          rw [split] at member
          rcases List.mem_append.mp member with before | member
          · rcases other with globals | ⟨⟨⟩, other⟩
            · rfl
            · exact absurd before not_mem_beforePanel
            · rfl
          · rcases List.mem_cons.mp member with rfl | behind
            · exact declares
            · exact oneTree other behind

end Config

/-! ## The store at first -/

namespace Memory

variable {memory : Memory} {owners : List Nat} {listing : InterfaceClass → List Port}

theorem Seeded.synced (seeded : memory.Seeded owners) (limit : Nat) :
    Contents.Synced memory.contents.nextId limit memory.contents
      memory.contents {} {} := by
  have none : memory.contents.ofClass .schedulerProfile = [] := by
    refine List.filter_eq_nil_iff.mpr fun stored member isProfile => ?_
    rcases seeded.owned stored member with ⟨port, -, onPort⟩
    rw [StoreObject.port?_eq (of_decide_eq_true isProfile)] at onPort
    cases onPort
  have handsOut : memory.contents.HandsOut memory.contents.nextId limit :=
    ⟨by simp [none], Nat.le_refl _, by simp [none]⟩
  exact ⟨handsOut, handsOut, by rw [none]; exact .nil, fun _ => .none⟩

theorem Seeded.alike (seeded : memory.Seeded owners) (Renames : Nat → Nat → Prop)
    (port : Option Nat) :
    List.Forall₂ (StoreObject.BoundAlike Renames) (memory.contents.part port)
      (memory.contents.part port) :=
  List.forall₂_same.mpr fun stored member =>
    have isStored := (Contents.mem_part_iff.mp member).1
    StoreObject.boundAlike_self (seeded.plain stored isStored)
      (seeded.unbound stored isStored)

theorem Stands.resolveAll (stands : memory.Stands listing) {name : String} {port : Port}
    (found : (listing .frontPanel).find? (fun port => port.name = name) = some port) :
    (Provisioner.resolveAll [name]).run.Ends responder memory (.ok [port])
      (memory.listPorts .frontPanel).2 := by
  have resolved : (findPort name).Ends responder memory (.ok (some port))
      (memory.listPorts .frontPanel).2 := by
    refine Ends.bind (ends_askPorts_iff.mpr ⟨rfl, rfl⟩) ?_
    change Ends responder (ExceptT.bindCont _ (memory.listPorts .frontPanel).1) _ _ _
    rw [(stands.listPorts_eq .frontPanel).1]
    simp only [ExceptT.bindCont, found]
    exact rfl
  have one := resolved.map (Except.mapError fun cause : StoreError =>
    ProvisionError.queryFailed ("interface " ++ name) cause.message)
  rw [Provisioner.resolveAll, List.mapM_cons, List.mapM_nil]
  exact Task.ends_bind (Task.ends_bind one (Task.ends_require_some _ _)) rfl

end Memory

namespace Provisioner

variable {provisioner : Provisioner} {config : Config} {topology : Topology}
  {port : TopologyPort} {before after : Memory}

/-! ## The run -/

section Run

variable (apart : (topology.ports.map (·.ifindex)).Nodup) (member : port ∈ topology.ports)
  (panel : port.cpu = false) (stands : before.Stands topology.listing)
  (plain : ∀ stored ∈ before.contents.objects, stored.IsPlain)
  (distinct : Contents.Distinct before.contents.objects)

include apart member panel stands plain distinct

theorem extends_runNodes_sparing {nodes : List ConfigNode} {names : Names}
    {phases : List PhaseReport}
    (noTree : ∀ node ∈ nodes, node.panelTree? = none)
    (ends : (provisioner.runNodes nodes names).Ends Memory.responder
      before phases after) :
    Contents.Extends provisioner.switchId (sparing port.ifindex) before.contents
      after.contents := by
  refine extends_runNodes plain distinct (fun node ifindex admits objectClass => ?_) ends
  rcases stands.exists_of_admits admits with
    ⟨interfaceClass, declared, other, isListed, rfl⟩
  refine PortNode.bindable_subset_sparing ?_
  cases interfaceClass with
  | frontPanel => exact .inl (noTree _ declared)
  | cpu => exact .inr (Topology.apart_of_cpu member panel apart other isListed)

/-- At the first front-panel node the tree is built on the port, which is
spared otherwise. -/
theorem exists_applyTree_of_runNodes {nodes : List ConfigNode} {node : PortNode}
    {tree : SchedulerTree} {names : Names} {phases : List PhaseReport}
    (declares : node.tree = some tree)
    (noTree : ∀ node ∈ nodes, node.panelTree? = none)
    (ends : (provisioner.runNodes (.ports .frontPanel node :: nodes) names).Ends
      Memory.responder before phases after) :
    ∃ start outcomes built, start.Stands topology.listing ∧
      (provisioner.scheduler.applyTree names port.listed tree).Ends
        Memory.responder start outcomes built ∧
      Contents.Binds provisioner.switchId (sparing port.ifindex) before.contents
        start.contents ∧
      Contents.Extends provisioner.switchId (sparing port.ifindex) built.contents
        after.contents := by
  rcases runNodes_ends_ports_iff.mp ends with ⟨_, middle, _, initialised, later, rfl⟩
  have listed := Topology.mem_frontPanel member panel
  rcases exists_initEach_of_initPortsOf stands (List.ne_nil_of_mem listed)
    Topology.isOf_listing
    (Topology.nodup_listing apart) initialised with ⟨left, each, sameContents⟩
  rcases List.append_of_mem listed with ⟨ahead, behind, split⟩
  rw [split] at each
  rcases exists_applyTree_of_initEach stands
    (split ▸ Topology.nodup_listing apart) plain distinct
    declares each with ⟨start, outcomes, built, startStands, applied, first, last⟩
  refine ⟨start, outcomes, built, startStands, applied, first, last.extends.trans ?_⟩
  rw [← sameContents]
  exact extends_runNodes_sparing apart member panel
    (stands.of_reaches initialised.reaches)
    (sameContents ▸ last.plain) (sameContents ▸ last.distinct) noTree later

end Run

/-! ## The rerun -/

theorem initInterfaces_ends {name : String} {port : Port} {asked middle : Memory}
    {outcomes : List Outcome} {names : Names} {report : PhaseReport}
    (resolved : (resolveAll [name]).run.Ends Memory.responder before (.ok [port]) asked)
    (created : (provisioner.createAllProfiles config.globals {}).Ends
      Memory.responder asked (outcomes, names) middle)
    (initialised : (provisioner.initInterface names config.panelTree? port).Ends
      Memory.responder middle report after) :
    (provisioner.initInterfaces config [name]).run.Ends Memory.responder before
      (.ok ⟨[⟨"scheduler profiles", outcomes⟩, report]⟩) after := by
  have each : (collect [port] fun port => do
      return [← provisioner.initInterface names config.panelTree? port]).Ends
        Memory.responder middle [report] after :=
    (initialised.map fun report => [report]).bind (ends_done_iff.mpr ⟨rfl, rfl⟩)
  refine Task.ends_bind resolved ?_
  exact (created.bind (each.map fun phases =>
    RunReport.mk (⟨"scheduler profiles", outcomes⟩ ::
    phases))).map Except.ok

theorem extends_createAllProfiles {nodes : List GlobalsNode} {names : Names}
    {result : List Outcome × Names} {bindable : Bindable}
    (plain : ∀ stored ∈ before.contents.objects, stored.IsPlain)
    (distinct : Contents.Distinct before.contents.objects)
    (ends : (provisioner.createAllProfiles nodes names).Ends Memory.responder
      before result after) :
    Contents.Extends provisioner.switchId bindable before.contents after.contents :=
  Memory.extends_of_adding submits_createAllProfiles
    (fun _ isProfile => isProfile ▸ rfl) plain distinct ends

/-! ## Both -/

/-- Both run and rerun come to build the tree on the port, on stores that look alike. -/
theorem exists_buildsAlike {memory asked ran : Memory} {owners : List Nat}
    {phases : List PhaseReport} {node : PortNode} {tree : SchedulerTree}
    (apart : (topology.ports.map (·.ifindex)).Nodup)
    (seeded : memory.Seeded owners) (stands : memory.Stands topology.listing)
    (askedStands : asked.Stands topology.listing)
    (sameContents : asked.contents = memory.contents)
    (rerunnable : config.Rerunnable provisioner.switchId memory.contents.nextId)
    (member : port ∈ topology.ports) (panel : port.cpu = false)
    (split : config.nodes =
      config.beforePanel ++ .ports .frontPanel node :: config.behindPanel)
    (declares : node.tree = some tree) (isTree : config.panelTree? = some tree)
    (ends : (provisioner.runNodes config.nodes {}).Ends Memory.responder
      memory phases ran) :
    ∃ start all names allNames built treeOutcomes outcomes,
      (provisioner.scheduler.applyTree names port.listed tree).Ends Memory.responder start
        treeOutcomes built ∧
      Contents.Extends provisioner.switchId (sparing port.ifindex)
        built.contents ran.contents ∧
      (provisioner.createAllProfiles config.globals {}).Ends Memory.responder asked
        (outcomes, allNames) all ∧
      BuildsAlike topology.listing port.ifindex tree start all names allNames := by
  have someTree : config.panelTree?.isSome := by rw [isTree]; rfl
  -- Up to the first front-panel node both create the same profiles.
  have startSynced : Contents.Synced memory.contents.nextId
      (memory.contents.nextId + declared config.beforePanel) memory.contents
      asked.contents {} {} := by
    rw [sameContents]
    exact seeded.synced _
  rw [split] at ends
  rcases runNodes_synced (fun _ => Config.not_mem_beforePanel) stands askedStands
    (Topology.apart_of_cpu member panel apart) seeded.plain seeded.distinct startSynced
    (rerunnable.room someTree) (Nat.le_refl _) (by rw [sameContents])
    (rerunnable.unclaimed someTree) ends with
    ⟨names, others, middle, outcomes, earlierNames, earlier, rest, first,
      middleStands, extended, synced⟩
  -- There the run builds the tree, and spares the port from then on.
  rcases exists_applyTree_of_runNodes apart member panel middleStands extended.plain
    extended.distinct declares rerunnable.oneTree rest with
    ⟨start, treeOutcomes, built, startStands, applied, bound, spared⟩
  -- The rerun creates the later profiles first, none of which has a name in the tree.
  have earlierStands := askedStands.of_reaches first.reaches
  rcases @exists_createAllProfiles provisioner topology.listing
    (Config.mk config.behindPanel).globals
    earlierNames earlier earlierStands with ⟨laterOutcomes, allNames, all, later, kept⟩
  have created := createAllProfiles_ends_append first later
  rw [← Config.globals_of_split split] at created
  have firstExtends : Contents.Extends provisioner.switchId
    (sparing port.ifindex) asked.contents
      earlier.contents := extends_createAllProfiles (sameContents.symm ▸ seeded.plain)
    (sameContents.symm ▸ seeded.distinct) first
  have laterExtends : Contents.Extends provisioner.switchId (sparing port.ifindex)
      earlier.contents all.contents :=
    extends_createAllProfiles firstExtends.plain firstExtends.distinct later
  have runExtends := extended.trans bound.extends
  have rerunExtends := firstExtends.trans laterExtends
  rw [sameContents] at rerunExtends
  refine ⟨start, all, names, allNames, built, treeOutcomes, _, applied, spared, created,
    { leftStands := startStands
      rightStands := earlierStands.of_reaches later.reaches
      leftPlain := bound.plain
      rightPlain := laterExtends.plain
      leftDistinct := bound.distinct
      rightDistinct := laterExtends.distinct
      parts := StoreObject.forall₂_boundAlike_spared (seeded.alike _ _) runExtends.spared
        rerunExtends.spared
      names := fun name isBound => ?_ }⟩
  rw [kept name fun node isLater profile declared same =>
    rerunnable.settled tree isTree node isLater profile declared (same ▸ isBound)]
  refine rel_imp (synced.names name) fun _ _ same => same.mono ?_ ?_
  · rw [bound.ofClass rfl]
    exact List.Subset.refl _
  · exact laterExtends.ofClass_subset rfl

/-- A rerun on a single front-panel port gives its groups the children, and its
groups and queues the profiles, that the run has given them; the profiles differ in
their ids only. -/
theorem initInterfaces_agrees {switchId : Nat} {memory ran : Memory} {report : RunReport}
    (names : (topology.ports.map (·.name)).Nodup)
    (apart : (topology.ports.map (·.ifindex)).Nodup)
    (seeded : Memory.ofTopology switchId topology = .ok memory)
    (rerunnable : config.Rerunnable provisioner.switchId memory.contents.nextId)
    (member : port ∈ topology.ports) (panel : port.cpu = false)
    (ends : (provisioner.run config).Ends Memory.responder memory report ran) :
    ∃ rerunReport rerun, (provisioner.initInterfaces config [port.name]).run.Ends
        Memory.responder memory (.ok rerunReport) rerun ∧
      List.Forall₂ (StoreObject.BoundAlike (ran.contents.SameProfile rerun.contents))
        (ran.contents.part (some port.ifindex))
          (rerun.contents.part (some port.ifindex)) := by
  rcases Memory.ofTopology_eq_ok apart seeded with ⟨⟨owners, seeded⟩, stands⟩
  rcases ends_bind_iff.mp ends with ⟨phases, last, ends, done⟩
  rcases ends_done_iff.mp done with ⟨-, rfl⟩
  -- The rerun asks for the port before it creates anything.
  have resolved := stands.resolveAll (Topology.find_frontPanel member panel names)
  have askedStands := (stands.listPorts_eq .frontPanel).2
  have sameContents : (memory.listPorts .frontPanel).2.contents = memory.contents :=
    Memory.contents_listPorts
  generalize (memory.listPorts .frontPanel).2 = asked at resolved askedStands sameContents
  rcases Config.panelTree_cases rerunnable.oneTree with
    ⟨node, tree, split, declares, isTree⟩ | ⟨noTree, noTrees⟩
  · rcases exists_buildsAlike apart seeded stands askedStands sameContents
      rerunnable member panel
      split declares isTree ends with
      ⟨start, all, names, allNames, built, outcomes, profiles, applied, spared,
        created, builds⟩
    rcases @applyTree_alike provisioner _ _ _ _ _ port.listed tree builds with
      ⟨_, builtToo, rerun, leftEnds, rightEnds, rerunPlain, parts⟩
    obtain rfl := (leftEnds.unique applied).2
    have initialised := rightEnds.map (PhaseReport.mk ("interface " ++ port.name))
    refine ⟨_, rerun, initInterfaces_ends resolved created
      (by rw [isTree]; exact initialised), ?_⟩
    refine StoreObject.forall₂_boundAlike_spared (parts.imp fun _ _ alike => alike.mono
      fun _ _ same => same.mono (spared.ofClass_subset rfl) (List.Subset.refl _))
      spared.spared ?_
    exact List.forall₂_same.mpr fun stored member =>
      StoreObject.spared_self (rerunPlain stored (Contents.mem_part_iff.mp member).1)
  · have spared :=
      extends_runNodes_sparing apart member panel stands seeded.plain seeded.distinct
      noTrees ends
    rcases @exists_createAllProfiles provisioner topology.listing config.globals {}
      asked askedStands
      with ⟨profiles, allNames, rerun, created, -⟩
    have sparedToo : Contents.Extends provisioner.switchId
      (sparing port.ifindex) asked.contents
        rerun.contents := extends_createAllProfiles (sameContents.symm ▸ seeded.plain)
      (sameContents.symm ▸ seeded.distinct) created
    rw [sameContents] at sparedToo
    refine ⟨_, rerun, initInterfaces_ends resolved created
      (by rw [noTree]; exact ends_done_iff.mpr ⟨rfl, rfl⟩), ?_⟩
    exact StoreObject.forall₂_boundAlike_spared (seeded.alike _ _) spared.spared
      sparedToo.spared

/-- A map gets its id first in a run, so that the profile has another one
than in a rerun. -/
def trustAndFair : Config :=
  let group : GroupNode := { number := 0, profile := some "fair", children := some [0] }
  let queue : QueueNode := { queueType := "UCAST", number := 0, profile := some "fair" }
  let tree : SchedulerTree :=
    ⟨[{ level := 0, groups := [group] }, { level := 1, leaf := true, queues := [queue] }]⟩
  ⟨[.globals
      { maps := [{ mapType := .dot1pToTc, tag := "trust" }],
        profiles := [{ tag := "fair" }] },
    .ports .frontPanel { ingress := [(.dot1pToTc, "trust")], tree := some tree },
    .globals { profiles := [{ tag := "spare" }] }]⟩

def groupPort : TopologyPort :=
  { name := "Ethernet0", ifindex := 1, schedulerGroups := [1], unicastQueues := 1 }

theorem initInterfaces_agrees_trustAndFair :
    ∃ memory report ran rerunReport rerun,
      Memory.ofTopology 0 ⟨[groupPort, { name := "CPU", ifindex := 9, cpu := true }]⟩ =
        .ok memory ∧
      trustAndFair.Rerunnable 0 memory.contents.nextId ∧
      (run ⟨0, 3⟩ trustAndFair).Ends Memory.responder memory report ran ∧
      report.appliedCount = 7 ∧
      (initInterfaces ⟨0, 3⟩ trustAndFair ["Ethernet0"]).run.Ends Memory.responder memory
        (.ok rerunReport) rerun ∧
      List.Forall₂ (StoreObject.BoundAlike (ran.contents.SameProfile rerun.contents))
        (ran.contents.part (some 1)) (rerun.contents.part (some 1)) := by
  let topology : Topology := ⟨[groupPort, { name := "CPU", ifindex := 9, cpu := true }]⟩
  let memory := (Memory.ofTopology 0 topology).toOption.getD (.new 0)
  have seeded : Memory.ofTopology 0 topology = .ok memory :=
    @Results.eq_ok_getD _ _ (Memory.ofTopology 0 topology) (by decide +kernel) (.new 0)
  have rerunnable : trustAndFair.Rerunnable 0 memory.contents.nextId := by decide +kernel
  have counted : ((run ⟨0, 3⟩ trustAndFair).run Memory.responder memory).1.map
      RunReport.appliedCount = some 7 := by
    decide +kernel
  rcases Option.map_eq_some_iff.mp counted with ⟨report, ended, count⟩
  rcases exists_ends_of_run ended with ⟨ran, ends⟩
  rcases @initInterfaces_agrees ⟨0, 3⟩ trustAndFair topology groupPort 0 memory ran report
    (by decide) (by decide) seeded rerunnable List.mem_cons_self rfl ends with
    ⟨rerunReport, rerun, rerunEnds, alike⟩
  exact ⟨memory, report, ran, rerunReport, rerun, seeded, rerunnable, ends, count,
    rerunEnds, alike⟩

end Provisioner

/-! ## Where they differ -/

def boundQueues (objects : List StoreObject) : List Bool :=
  objects.map fun object => object.classPath = ObjectClass.queue.path &&
    (object.get? (ObjectClass.queue.pathOf "scheduler-profile-id")).isSome

theorem boundQueues_eq {Renames : Nat → Nat → Prop} {lefts rights : List StoreObject}
    (alike : List.Forall₂ (StoreObject.BoundAlike Renames) lefts rights) :
    boundQueues rights = boundQueues lefts := by
  induction alike with
  | nil => rfl
  | @cons left right _ _ first _ induction =>
      rw [boundQueues, boundQueues, List.map_cons, List.map_cons,
        ← boundQueues, ← boundQueues, induction, first.classPath]
      congr 1
      by_cases isQueue : left.classPath = ObjectClass.queue.path
      · have related := first.profile .queue rfl isQueue
        revert related
        generalize left.get? _ = old, right.get? _ = new
        rintro (_ | _) <;> simp
      · simp [isQueue]

namespace Provisioner

variable {provisioner : Provisioner}

/-- The configuration is accepted, and on the port a run and a rerun bind differently. -/
def Disagrees (provisioner : Provisioner) (config : Config) (memory : Memory)
    (port : TopologyPort) : Prop :=
  config.fault? = none ∧ ∃ report ran rerunReport rerun,
    (provisioner.run config).Ends Memory.responder memory report ran ∧
    (provisioner.initInterfaces config [port.name]).run.Ends Memory.responder memory
      (.ok rerunReport) rerun ∧
    ¬List.Forall₂ (StoreObject.BoundAlike (ran.contents.SameProfile rerun.contents))
      (ran.contents.part (some port.ifindex)) (rerun.contents.part (some port.ifindex))

def bindsOther (ifindex : Nat) :
    Option RunReport × Memory → Option (Except ProvisionError RunReport) × Memory → Bool
  | (some _, ran), (some (.ok _), rerun) =>
      boundQueues (rerun.contents.part (some ifindex)) ≠
        boundQueues (ran.contents.part (some ifindex))
  | _, _ => false

theorem disagrees_of_bindsOther {config : Config} {memory : Memory} {port : TopologyPort}
    (accepted : config.fault? = none)
    (other : bindsOther port.ifindex
      ((provisioner.run config).run Memory.responder memory)
      ((provisioner.initInterfaces config [port.name]).run.run Memory.responder
        memory) = true) :
    provisioner.Disagrees config memory port := by
  refine ⟨accepted, ?_⟩
  rcases ranToo : (provisioner.run config).run Memory.responder memory with
    ⟨_ | report, ran⟩
  · rw [ranToo] at other
    cases other
  · rcases rerunToo : (provisioner.initInterfaces config [port.name]).run.run
      Memory.responder memory with ⟨_ | _ | rerunReport, rerun⟩
    · rw [ranToo, rerunToo] at other
      cases other
    · rw [ranToo, rerunToo] at other
      cases other
    · rw [ranToo, rerunToo] at other
      exact ⟨report, ran, rerunReport, rerun, ranToo, rerunToo, fun alike =>
        of_decide_eq_true other (boundQueues_eq alike)⟩

def queueWith (profile : String) : SchedulerTree :=
  let queue : QueueNode := { queueType := "UCAST", number := 0, profile := some profile }
  ⟨[{ level := 0, leaf := true, queues := [queue] }]⟩

def laterTree : Config :=
  ⟨[.globals { profiles := [{ tag := "fair" }] }, .ports .frontPanel {},
    .ports .frontPanel { tree := some (queueWith "fair") }]⟩

def laterProfile : Config :=
  ⟨[.ports .frontPanel { tree := some (queueWith "fair") },
    .globals { profiles := [{ tag := "fair" }] }]⟩

/-- A profile names the id that the map gets in a run, and another profile in a rerun. -/
def claimedId : Config :=
  let fixed : ProfileNode := { tag := "fixed", attrs := ⟨[("id", .int 4097)]⟩ }
  ⟨[.globals
      { maps := [{ mapType := .dot1pToTc, tag := "trust" }],
        profiles := [fixed, { tag := "fair" }] },
    .ports .frontPanel { tree := some (queueWith "fair") }]⟩

def queuePort : TopologyPort := { name := "Ethernet0", ifindex := 1, unicastQueues := 1 }

/-- Without these conditions run and rerun do not bind the same. -/
theorem initInterfaces_agrees_refuted :
    ∃ memory, Memory.ofTopology 0 ⟨[queuePort]⟩ = .ok memory ∧
      Disagrees ⟨0, 3⟩ laterTree memory queuePort ∧
      Disagrees ⟨0, 3⟩ laterProfile memory queuePort ∧
      Disagrees ⟨0, 3⟩ claimedId memory queuePort :=
  ⟨(Memory.ofTopology 0 ⟨[queuePort]⟩).toOption.getD (.new 0),
    @Results.eq_ok_getD _ _ (Memory.ofTopology 0 ⟨[queuePort]⟩)
      (by decide +kernel) (.new 0),
    disagrees_of_bindsOther (by decide) (by decide +kernel),
    disagrees_of_bindsOther (by decide) (by decide +kernel),
    disagrees_of_bindsOther (by decide) (by decide +kernel)⟩

end Provisioner

end SwitchQos
