import SwitchQos.Proofs.Provision.PortAgreement
import SwitchQos.Proofs.Provision.PortDiscovery
import SwitchQos.Store.Topology

namespace SwitchQos

/-! The order in which ports are initialised does not matter. Each port is initialised as
it would be alone, because what belongs to it has not been changed by the ports before it,
and it leaves alone what belongs to the ports after it. So its report, and all that is
stored for it in the end, can be told from the start. -/

open Exchange

/-- The store answers, has no key data and has each entity once. -/
structure Memory.Ready (memory : Memory) : Prop where
  available : memory.unavailable = 0
  plain : ∀ stored ∈ memory.contents.objects, stored.IsPlain
  distinct : Contents.Distinct memory.contents.objects

namespace Footprint

variable {footprint : Footprint} {left right : Memory}

theorem twins_eq (same : ∀ left right, footprint.Renames left right → left = right) :
    footprint.Twins fun left right => right = left ∧ left.IsPlain where
  plain := by
    rintro left _ ⟨rfl, plain⟩
    exact ⟨plain, plain⟩
  classPath := fun twin => congrArg _ twin.1
  entity := fun twin => congrArg _ twin.1
  shows := by
    rintro groups template left _ - ⟨rfl, -⟩ -
    exact StoreObject.showsSame_self _
  agrees := fun _ twin _ => congrArg (StoreObject.agreesWith · _) twin.1
  updated := by
    rintro groups object other left _ sets ⟨rfl, plain⟩
    rw [sets.same same]
    exact ⟨rfl, StoreObject.isPlain_updatedBy.mpr plain⟩

theorem agrees_of_part (same : ∀ left right, footprint.Renames left right → left = right)
    (none : footprint.groups = ∅) (leftReady : left.Ready) (rightReady : right.Ready)
    (rules : right.rules = left.rules)
    (part : right.contents.part (some footprint.port) =
      left.contents.part (some footprint.port)) :
    footprint.Agrees (fun left right => right = left ∧ left.IsPlain) left right where
  leftWithin := ⟨leftReady.plain, leftReady.distinct, by simp [none]⟩
  rightWithin := ⟨rightReady.plain, rightReady.distinct, by simp [none]⟩
  leftAvailable := leftReady.available
  rightAvailable := rightReady.available
  parts := by
    rw [part]
    refine List.forall₂_same.mpr fun stored member => ⟨rfl, ?_⟩
    exact leftReady.plain stored (Contents.mem_part_iff.mp member).1
  rules := by
    intro groups object other sets
    rw [sets.same same, rules]

end Footprint

namespace Provisioner

variable {provisioner : Provisioner} {names : Names} {node : PortNode}

/-- On stores that have the same for a port, it is initialised in the same way. -/
theorem initPort_agrees {port : Port} {left right : Memory} (leftReady : left.Ready)
    (rightReady : right.Ready) (rules : right.rules = left.rules)
    (part : right.contents.part (some port.ifindex) =
      left.contents.part (some port.ifindex)) :
    ∃ report leftAfter rightAfter,
      (provisioner.initPort names node port).Ends Memory.responder left report leftAfter ∧
      (provisioner.initPort names node port).Ends Memory.responder right
        report rightAfter ∧
      leftAfter.Ready ∧ rightAfter.Ready ∧
      rightAfter.contents.part (some port.ifindex) =
        leftAfter.contents.part (some port.ifindex) := by
  let footprint := Footprint.ofPort provisioner.switchId names node port
  have twins (groups : Set Nat) :=
    @Footprint.twins_eq (footprint groups) fun _ _ same => same
  have start :=
    @Footprint.agrees_of_part (footprint ∅) left right (fun _ _ same => same) rfl
    leftReady rightReady rules part
  rcases Footprint.parallel_bindPortMaps.ends (twins ∅).simulates start with
    ⟨maps, leftMiddle, rightMiddle, leftBound, rightBound, middle⟩
  obtain ⟨outcomes, leftAfter, rightAfter, groups, leftBuilt, rightBuilt, last⟩ :
      ∃ outcomes leftAfter rightAfter groups,
        (provisioner.applyTree? names port node.tree).Ends Memory.responder
          leftMiddle outcomes leftAfter ∧
        (provisioner.applyTree? names port node.tree).Ends Memory.responder
          rightMiddle outcomes rightAfter ∧
        (footprint groups).Agrees
          (fun left right => right = left ∧ left.IsPlain) leftAfter
          rightAfter := by
    cases node.tree with
    | none =>
        exact ⟨[], leftMiddle, rightMiddle, ∅, ends_done_iff.mpr ⟨rfl, rfl⟩,
          ends_done_iff.mpr ⟨rfl, rfl⟩, middle⟩
    | some tree =>
        exact middle.applyTree rfl rfl twins fun name _ =>
          Footprint.renames_self names.profiles name
  refine ⟨_, leftAfter, rightAfter, leftBound.bind (leftBuilt.map _),
    rightBound.bind (rightBuilt.map _), ?_, ?_, ?_⟩
  · exact ⟨last.leftAvailable, last.leftWithin.plain, last.leftWithin.distinct⟩
  · exact ⟨last.rightAvailable, last.rightWithin.plain, last.rightWithin.distinct⟩
  · rw [← List.forall₂_eq_eq_eq]
    exact last.parts.flip.imp fun new old twin => twin.1

/-! ## Several ports -/

/-- What has become of the store when the ports have been initialised, where `own` is what
each of them leaves when it is initialised alone. -/
structure Initialised (own : Port → Memory) (ports : List Port)
    (before after : Memory) : Prop where
  nextId : after.contents.nextId = before.contents.nextId
  places : after.contents.objects.map StoreObject.port? =
    before.contents.objects.map StoreObject.port?
  done : ∀ port ∈ ports,
    after.contents.part (some port.ifindex) = (own port).contents.part (some port.ifindex)
  others : ∀ place, place ∉ ports.map (fun port => some port.ifindex) →
    after.contents.part place = before.contents.part place

/-- Each port is initialised as it would be alone. -/
theorem initEach_initialises {start : Memory} {report : Port → PhaseReport}
    {own : Port → Memory} (startReady : start.Ready)
    (alone : ∀ port, (provisioner.initPort names node port).Ends Memory.responder start
      (report port) (own port))
    {ports : List Port} {before : Memory} (ready : before.Ready)
    (rules : before.rules = start.rules) (distinct : (ports.map (·.ifindex)).Nodup)
    (fresh : ∀ port ∈ ports, before.contents.part (some port.ifindex) =
      start.contents.part (some port.ifindex)) :
    ∃ after, (provisioner.initEach names node ports).Ends Memory.responder before
      (ports.map report) after ∧ Initialised own ports before after := by
  induction ports generalizing before with
  | nil =>
      exact ⟨before, ends_done_iff.mpr ⟨rfl, rfl⟩, ⟨rfl, rfl, by simp, fun _ _ => rfl⟩⟩
  | cons port rest induction =>
      rcases List.nodup_cons.mp distinct with ⟨apart, restDistinct⟩
      rcases initPort_agrees startReady ready rules (fresh port List.mem_cons_self) with
        ⟨_, _, middle, startEnds, ends, -, middleReady, ownPart⟩
      rcases (alone port).unique startEnds with ⟨rfl, rfl⟩
      rcases Footprint.kept_initPort
          ⟨ready.plain, ready.distinct, by rintro id ⟨⟩⟩ ends with
        ⟨groups, kept⟩
      have notOwn (other : Port)
          (member : other ∈ rest) : some other.ifindex ≠ some port.ifindex :=
        fun same => apart (List.mem_map.mpr ⟨other, member, Option.some.inj same⟩)
      obtain ⟨after, others, initialised⟩ :=
        induction middleReady (kept.rules.trans rules)
        restDistinct fun other member =>
          (kept.confined.others _ (notOwn other member)).trans
            (fresh other (List.mem_cons_of_mem _ member))
      have both := initEach_ends_cons_iff.mpr ⟨_, _, _, ends, others, rfl⟩
      refine ⟨after, both, initialised.nextId.trans kept.confined.nextId,
        initialised.places.trans kept.confined.places, fun other member =>
          ?_, fun place isOther => ?_⟩
      · rcases List.mem_cons.mp member with rfl | later
        · refine (initialised.others _ fun listed => ?_).trans ownPart
          rcases List.mem_map.mp listed with ⟨later, member, same⟩
          exact notOwn later member same
        · exact initialised.done other later
      · rw [List.map_cons, List.mem_cons, not_or] at isOther
        exact (initialised.others place isOther.2).trans
          (kept.confined.others place isOther.1)

/-- Ports in any order get the same reports, and leave the same store. -/
theorem initEach_perm (provisioner : Provisioner) (names : Names) (node : PortNode)
    {memory : Memory} {ports others : List Port} (available : memory.unavailable = 0)
    (plain : ∀ stored ∈ memory.contents.objects, stored.IsPlain)
    (keysDistinct : Contents.Distinct memory.contents.objects)
    (distinct : (ports.map (·.ifindex)).Nodup) (same : ports.Perm others) :
    ∃ (report : Port → PhaseReport) (first second : Memory),
      (provisioner.initEach names node ports).Ends Memory.responder memory
        (ports.map report)
        first ∧
      (provisioner.initEach names node others).Ends Memory.responder memory
        (others.map report) second ∧
      second.contents = first.contents := by
  have ready : memory.Ready := ⟨available, plain, keysDistinct⟩
  have one (port : Port) : ∃ report own,
      (provisioner.initPort names node port).Ends Memory.responder memory report own := by
    rcases initPort_agrees ready ready rfl rfl with ⟨report, own, -, ends, -⟩
    exact ⟨report, own, ends⟩
  choose report own alone using one
  rcases initEach_initialises ready alone ready rfl distinct fun _ _ => rfl with
    ⟨first, firstEnds, firstDone⟩
  rcases initEach_initialises ready alone ready rfl ((same.map _).nodup_iff.mp distinct)
    fun _ _ => rfl with ⟨second, secondEnds, secondDone⟩
  refine ⟨report, first, second, firstEnds, secondEnds, ?_⟩
  have samePart (place : Option Nat) :
      second.contents.part place = first.contents.part place := by
    by_cases isPort : place ∈ ports.map fun port => some port.ifindex
    · rcases List.mem_map.mp isPort with ⟨port, member, rfl⟩
      rw [secondDone.done port (same.mem_iff.mp member), firstDone.done port member]
    · rw [firstDone.others place isPort,
        secondDone.others place ((same.map _).mem_iff.not.mp isPort)]
  have sameObjects :=
    Results.eq_of_filter_eq (secondDone.places.trans firstDone.places.symm)
    samePart
  have sameId := secondDone.nextId.trans firstDone.nextId.symm
  cases firstContents : first.contents
  cases secondContents : second.contents
  rw [firstContents, secondContents] at sameObjects sameId
  cases sameObjects
  cases sameId
  rfl

def pairOfPorts : Memory :=
  let ports : List TopologyPort :=
    [{ name := "Ethernet0", ifindex := 1, schedulerGroups := [1] },
      { name := "Ethernet4", ifindex := 5, schedulerGroups := [1] }]
  ((Memory.ofTopology 0 ⟨ports⟩).toOption.getD (.new 0)).refuse
    ⟨.set, ObjectClass.schedulerGroup.path,
      some (ObjectClass.schedulerGroup.pathOf "id", Storage.uint64.word 4097)⟩

theorem initEach_perm_pairOfPorts :
    let names := ({} : Names).addProfile "fair" 7
    let node : PortNode :=
      { tree :=
        some ⟨[{ level := 0, groups := [{ number := 0, profile := some "fair" }] }]⟩ }
    let first : Port := ⟨"Ethernet0", 1, InterfaceClass.frontPanel.typeName⟩
    let second : Port := ⟨"Ethernet4", 5, InterfaceClass.frontPanel.typeName⟩
    ∃ (report : Port → PhaseReport) (forwards backwards : Memory),
      (initEach ⟨0, 1⟩ names node [first, second]).Ends Memory.responder pairOfPorts
        [report first, report second] forwards ∧
      (initEach ⟨0, 1⟩ names node [second, first]).Ends Memory.responder pairOfPorts
        [report second, report first] backwards ∧
      (report first).succeeded = true ∧ (report second).succeeded = false ∧
      backwards.contents = forwards.contents := by
  intro names node first second
  have reports : ((initEach ⟨0, 1⟩ names node [first, second]).run Memory.responder
      pairOfPorts).1.map (fun phases => phases.map PhaseReport.succeeded) =
      some [true, false] := by
    decide +kernel
  rcases @initEach_perm ⟨0, 1⟩ names node pairOfPorts [first, second] [second, first]
    (by decide +kernel) (by decide +kernel) (by decide +kernel) (by decide)
    (by decide) with
    ⟨report, forwards, backwards, ends, endsToo, same⟩
  rw [ends] at reports
  simp only [List.map_cons, List.map_nil, Option.map_some, Option.some.injEq,
    List.cons.injEq, and_true] at reports
  exact ⟨report, forwards, backwards, ends, endsToo, reports.1, reports.2, same⟩

end Provisioner

end SwitchQos
