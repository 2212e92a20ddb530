import SwitchQos.Proofs.Provision.Footprint
import SwitchQos.Proofs.Provision.Steadiness
import SwitchQos.Proofs.Store.Parts

namespace SwitchQos

/-! Provisioning a port changes nothing beside what belongs to the port, and depends on
nothing else. A group is addressed by its id alone, but the ids that come up are those of
groups of the port. So on two stores whose objects of the port look alike, a port is
provisioned alike, whatever else is stored. -/

namespace Memory

variable {memory : Memory} {object : StoreObject} {objectClass : ObjectClass}

/-- Setting an object is refused, or it rewrites what is stored. -/
theorem transact_set_cases (distinct : Contents.Distinct memory.contents.objects)
    (isOf : object.classPath = objectClass.path) :
    (∃ reason, memory.contents.refusal? memory.rules object = some reason ∧
      memory.transact [⟨.set, object⟩] = (.error (.rejected reason), memory)) ∨
    (memory.contents.refusal? memory.rules object = none ∧
      ∃ answers after, memory.transact [⟨.set, object⟩] = (.ok answers, after) ∧
        after.rules = memory.rules ∧ after.unavailable = memory.unavailable ∧
        after.contents = memory.contents.rewritten [object]) := by
  cases decided : memory.contents.refusal? memory.rules object with
  | some reason => exact .inl ⟨reason, rfl, transact_of_refusal isOf decided⟩
  | none => exact .inr ⟨rfl, transact_of_accepted distinct isOf decided⟩

end Memory

namespace Footprint

variable {footprint : Footprint} {object other stored : StoreObject} {contents : Contents}

def withGroups (footprint : Footprint) (groups : Set Nat) : Footprint :=
  { footprint with groups }

/-! ## What settings address -/

/-- The store has no key data and each entity once, and the groups that may be set belong
to the port. -/
structure Within (footprint : Footprint) (contents : Contents) : Prop where
  plain : ∀ stored ∈ contents.objects, stored.IsPlain
  distinct : Contents.Distinct contents.objects
  groups : ∀ id ∈ footprint.groups, ∃ stored ∈ contents.objects,
    stored.entity? = some ⟨.schedulerGroup, [Storage.uint64.word id]⟩ ∧
      stored.port? = some footprint.port

theorem entity?_groupProfile {id profile : Nat} :
    (footprint.groupProfile id profile).entity? =
      some ⟨.schedulerGroup, [Storage.uint64.word id]⟩ :=
  entity?_groupObject (by simp; decide) (by simp [Directory.findRow])

theorem entity?_groupChildren {id count : Nat} {members : StoreValue} :
    (footprint.groupChildren id count members).entity? =
      some ⟨.schedulerGroup, [Storage.uint64.word id]⟩ :=
  entity?_groupObject (by simp; decide) (by simp [Directory.findRow])

theorem port?_queueObject {switchId code profile : Nat} {key : QueueKey}
    (fits : key.port < countOfBits 32) :
    (queueObject switchId code key profile).port? = some key.port := by
  have plain : (queueObject switchId code key profile).IsPlain :=
    ObjectClass.keyData_assemble
  have spec : ObjectClass.queue.spec? "port-id" = some (.scalar .uint32) := rfl
  have isOf : (queueObject switchId code key profile).classPath =
      ObjectClass.queue.path :=
    ObjectClass.classPath_assemble
  rw [StoreObject.port?_eq isOf]
  exact (plain.number?_eq_some_iff spec ⟨rfl, rfl⟩).mpr
    ⟨fits, get?_queueObject (by decide)⟩

theorem port?_portMap {direction : Direction} {mapType : MapType} {id : Nat}
    (has : direction.objectClass.Has mapType.name)
    (fits : footprint.port < countOfBits 32) :
    (footprint.portMap direction mapType id).port? = some footprint.port := by
  have plain : (footprint.portMap direction mapType id).IsPlain :=
    ObjectClass.keyData_assemble
  have spec : direction.objectClass.spec? "port-id" = some (.scalar .uint32) := by
    cases direction <;> rfl
  have isPort : direction.objectClass.ofPort = true := by cases direction <;> rfl
  have hasAll : ∀ row ∈ [(mapType.name, Storage.uint64.word id),
      ("port-id", Storage.uint32.word footprint.port),
      ("switch-id", Storage.uint32.word footprint.switchId)],
      direction.objectClass.Has row.1 := by
    have others : direction.objectClass.Has "port-id" ∧
        direction.objectClass.Has "switch-id" := by
      cases direction <;> decide
    simpa using ⟨has, others⟩
  have otherName : mapType.name ≠ "port-id" := by cases mapType <;> decide
  have isOf : (footprint.portMap direction mapType id).classPath =
      direction.objectClass.path :=
    ObjectClass.classPath_assemble
  rw [StoreObject.port?_eq isOf, if_pos isPort]
  refine (plain.number?_eq_some_iff spec ⟨rfl, rfl⟩).mpr ⟨fits, ?_⟩
  rw [portMap, ObjectClass.get?_assemble (.of_spec? spec) hasAll]
  simp [Directory.findRow, otherName]
  rfl

theorem Sets.isOf (sets : footprint.Sets object other) :
    ∃ objectClass : ObjectClass, object.classPath = objectClass.path ∧
      other.classPath = objectClass.path := by
  cases sets <;> exact ⟨_, ObjectClass.classPath_assemble, ObjectClass.classPath_assemble⟩

theorem Sets.entity? (sets : footprint.Sets object other) :
    other.entity? = object.entity? := by
  cases sets with
  | groupProfile => rw [entity?_groupProfile, entity?_groupProfile]
  | queueProfile => rw [entity?_queueObject, entity?_queueObject]
  | groupChildren | portMap => rfl

theorem Sets.addresses (sets : footprint.Sets object other)
    (within : footprint.Within contents) (member : stored ∈ contents.objects)
    (same : object.SameEntity stored) :
    stored.port? = some footprint.port := by
  have ofGroup {id : Nat} (isGroup : id ∈ footprint.groups)
      (addressed : stored.entity? = some ⟨.schedulerGroup, [Storage.uint64.word id]⟩) :
      stored.port? = some footprint.port := by
    rcases within.groups id isGroup with ⟨group, isStored, isEntity, onPort⟩
    rw [within.distinct.eq_of_entity? member isStored addressed isEntity]
    exact onPort
  cases sets with
  | groupProfile isGroup _ =>
      have addressed := (StoreObject.sameEntity_iff.mp same).2
      exact ofGroup isGroup (addressed.trans entity?_groupProfile)
  | groupChildren isGroup =>
      have addressed := (StoreObject.sameEntity_iff.mp same).2
      exact ofGroup isGroup (addressed.trans entity?_groupChildren)
  | queueProfile onPort portFits _ =>
      rw [StoreObject.port?_of_sameEntity same ObjectClass.classPath_assemble (by decide),
        port?_queueObject (onPort ▸ portFits), onPort]
  | @portMap direction _ _ _ has portFits =>
      have isKey : "port-id" ∈ direction.objectClass.keyAttrs := by
        cases direction <;> decide
      rw [StoreObject.port?_of_sameEntity same ObjectClass.classPath_assemble isKey,
        port?_portMap has portFits]

theorem Sets.port?_updatedBy (sets : footprint.Sets object other)
    (within : footprint.Within contents) (member : stored ∈ contents.objects) :
    (object.updatedBy stored).port? = stored.port? := by
  have plain := within.plain stored member
  have ofKey {objectClass : ObjectClass} (isOf : object.classPath = objectClass.path)
      (isKey : "port-id" ∈ objectClass.keyAttrs) (same : object.SameEntity stored) :
      (object.updatedBy stored).port? = stored.port? := by
    have still : object.SameEntity (object.updatedBy stored) :=
      (StoreObject.sameEntity_congr (StoreObject.entity?_updatedBy plain)).mpr same
    rw [StoreObject.port?_of_sameEntity still isOf isKey,
      StoreObject.port?_of_sameEntity same isOf isKey]
  have ofGroup {id : Nat} {rows : List (String × StoreValue)}
      (isObject : object = groupObject footprint.switchId id rows)
      (hasAll : ∀ row ∈ rows, ObjectClass.schedulerGroup.Has row.1)
      (noPort : Directory.findRow "port-id" rows = none)
      (same : object.SameEntity stored) :
      (object.updatedBy stored).port? = stored.port? := by
    have isPlain : object.IsPlain := isObject ▸ ObjectClass.keyData_assemble
    have isOf : object.classPath = ObjectClass.schedulerGroup.path :=
      isObject ▸ ObjectClass.classPath_assemble
    refine StoreObject.port?_congr StoreObject.classPath_updatedBy
      fun objectClass storedOf => ?_
    obtain rfl : .schedulerGroup = objectClass := by
      rcases same with ⟨entity, given, found⟩
      have samePath := (StoreObject.entity?_eq_some_iff.mp given).1.trans
        (StoreObject.entity?_eq_some_iff.mp found).1.symm
      exact ObjectClass.path_injective (isOf.symm.trans (samePath.trans storedOf))
    have unwritten : object.lookup
        (ObjectClass.schedulerGroup.pathOf "port-id") = none := by
      rw [isPlain.lookup, isObject, get?_groupObject (by decide) hasAll, noPort]
      rfl
    rw [(StoreObject.isPlain_updatedBy.mpr plain).lookup, plain.lookup,
      StoreObject.get?_updatedBy, unwritten]
    simp
  by_cases same : object.SameEntity stored
  · cases sets with
    | groupProfile =>
        exact ofGroup rfl (by simp; decide) (by simp [Directory.findRow]) same
    | groupChildren =>
        exact ofGroup rfl (by simp; decide) (by simp [Directory.findRow]) same
    | queueProfile => exact ofKey ObjectClass.classPath_assemble (by decide) same
    | @portMap direction =>
        have isKey : "port-id" ∈ direction.objectClass.keyAttrs := by
          cases direction <;> decide
        exact ofKey ObjectClass.classPath_assemble isKey same
  · rw [StoreObject.updatedBy, if_neg same]

theorem Sets.within_rewritten (sets : footprint.Sets object other)
    (within : footprint.Within contents) :
    footprint.Within (contents.rewritten [object]) where
  plain := by
    intro stored member
    rcases List.mem_map.mp member with ⟨old, isOld, rfl⟩
    exact StoreObject.isPlain_updatedBy.mpr (within.plain old isOld)
  distinct := within.distinct.map fun old isOld =>
    StoreObject.entity?_updatedBy (within.plain old isOld)
  groups := by
    intro id isGroup
    rcases within.groups id isGroup with ⟨old, isOld, isEntity, onPort⟩
    refine ⟨object.updatedBy old, List.mem_map_of_mem isOld, ?_, ?_⟩
    · exact (StoreObject.entity?_updatedBy (within.plain old isOld)).trans isEntity
    · exact (sets.port?_updatedBy within isOld).trans onPort

theorem Sets.confined (sets : footprint.Sets object other)
    (within : footprint.Within contents) :
    Contents.ConfinedTo (some footprint.port) contents (contents.rewritten [object]) :=
  Contents.confinedTo_rewritten (fun _ member => sets.port?_updatedBy within member)
    fun _ member => sets.addresses within member

/-! ## Confinement -/

structure Kept (footprint : Footprint) (start memory : Memory) : Prop where
  within : footprint.Within memory.contents
  confined : Contents.ConfinedTo (some footprint.port) start.contents memory.contents
  rules : memory.rules = start.rules

theorem kept_self {start : Memory} (within : footprint.Within start.contents) :
    footprint.Kept start start := ⟨within, Contents.confinedTo_self, rfl⟩

theorem Kept.of_same {start memory later : Memory} (kept : footprint.Kept start memory)
    (sameContents : later.contents = memory.contents)
    (sameRules : later.rules = memory.rules) :
    footprint.Kept start later :=
  ⟨sameContents ▸ kept.within, sameContents ▸ kept.confined, sameRules.trans kept.rules⟩

theorem Kept.set {start memory : Memory} (kept : footprint.Kept start memory)
    (sets : footprint.Sets object other) :
    footprint.Kept start (memory.transact [⟨.set, object⟩]).2 := by
  rcases sets.isOf with ⟨objectClass, isOf, -⟩
  rcases Memory.transact_set_cases kept.within.distinct isOf with
    ⟨reason, -, refused⟩ | ⟨-, answers, after, accepted, sameRules, -, sameContents⟩
  · rw [refused]
    exact kept
  · rw [accepted]
    exact ⟨sameContents ▸ sets.within_rewritten kept.within,
      sameContents ▸ kept.confined.trans (sets.confined kept.within),
      sameRules.trans kept.rules⟩

/-- A part of a run that only sets what it may stays within the footprint. -/
theorem kept_of_reaches {Result : Type} {exchange other rest : Exchange Result}
    {start later : Memory} (parallel : exchange.Parallel footprint.conduct other)
    (reaches : Exchange.Reaches Memory.responder exchange start rest later)
    (within : footprint.Within start.contents) : footprint.Kept start later := by
  refine parallel.submits.kept (footprint.Kept start) (fun template memory kept => ?_)
    (fun batch memory allowed kept => ?_) (fun interfaceClass memory kept => ?_) reaches
    (kept_self within)
  · change footprint.Kept start (memory.query template).2
    exact kept.of_same Memory.contents_query Memory.rules_query
  · rcases allowed with ⟨object, other, sets, rfl⟩
    exact kept.set sets
  · change footprint.Kept start (memory.listPorts interfaceClass).2
    exact kept.of_same Memory.contents_listPorts Memory.rules_listPorts

theorem Kept.trans {groups : Set Nat} {start middle later : Memory}
    (first : footprint.Kept start middle)
    (second : (footprint.withGroups groups).Kept middle later) :
    (footprint.withGroups groups).Kept start later :=
  ⟨second.within, first.confined.trans second.confined, second.rules.trans first.rules⟩

/-! ## Trees -/

def listed (found : Except ProvisionError GroupIndex) : Set Nat :=
  {id | ∃ index level ordinal, found = .ok index ∧ index.get? level ordinal = some id}

section Trees

open Exchange

variable {scheduler : Scheduler} {port : Port} {names : Names} {start after : Memory}

theorem Within.discovered (onPort : footprint.port = port.ifindex)
    (within : footprint.Within contents) :
    (footprint.withGroups (listed (scheduler.discovered contents port))).Within
      contents where
  plain := within.plain
  distinct := within.distinct
  groups := by
    rintro id ⟨index, level, ordinal, found, isListed⟩
    rcases Scheduler.exists_of_discovered within.plain found isListed with
      ⟨stored, member, isEntity, -, isPort⟩
    refine ⟨stored, member, isEntity, ?_⟩
    rw [StoreObject.port?_eq (StoreObject.entity?_eq_some_iff.mp isEntity).1, isPort]
    exact congrArg some onPort.symm

/-- Building a tree discovers groups, and then carries out bindings within the
footprint. -/
theorem exists_bindings_of_applyTree {tree : SchedulerTree} {outcomes : List Outcome}
    (onSwitch : footprint.switchId = scheduler.switchId)
    (onPort : footprint.port = port.ifindex)
    (known : ∀ name ∈ tree.profiles,
      Option.Rel footprint.Renames (names.profiles.get? name) (names.profiles.get? name))
    (within : footprint.Within start.contents)
    (ends : (scheduler.applyTree names port tree).Ends Memory.responder start
      outcomes after) :
    ∃ (groups : Set Nat) (middle : Memory) (bindings : Exchange (List Outcome)),
      middle.contents = start.contents ∧ middle.rules = start.rules ∧
      (footprint.withGroups groups).Within start.contents ∧
      bindings.Parallel (footprint.withGroups groups).conduct bindings ∧
      bindings.Ends Memory.responder middle outcomes after := by
  rw [Scheduler.applyTree_eq] at ends
  rcases ends_bind_iff.mp ends with ⟨found, middle, read, built⟩
  rcases Scheduler.readGroups_ends_any within.plain with
    ⟨_, _, readToo, sameContents, sameRules, wasDiscovered⟩
  rcases readToo.unique read with ⟨rfl, rfl⟩
  let groups := listed (scheduler.discovered start.contents port)
  have bindings :=
    @parallel_treeBindings (footprint.withGroups groups) scheduler port names names
    tree found onSwitch onPort (fun index isIndex level ordinal id isListed =>
      ⟨index, level, ordinal, wasDiscovered index isIndex, isListed⟩) known
  exact ⟨groups, middle, _, sameContents, sameRules, within.discovered onPort,
    bindings, built⟩

theorem kept_applyTree {tree : SchedulerTree} {outcomes : List Outcome}
    (onSwitch : footprint.switchId = scheduler.switchId)
    (onPort : footprint.port = port.ifindex)
    (known : ∀ name ∈ tree.profiles,
      Option.Rel footprint.Renames (names.profiles.get? name) (names.profiles.get? name))
    (within : footprint.Within start.contents)
    (ends : (scheduler.applyTree names port tree).Ends Memory.responder start
      outcomes after) :
    ∃ groups, (footprint.withGroups groups).Kept start after := by
  rcases exists_bindings_of_applyTree onSwitch onPort known within ends with
    ⟨groups, middle, bindings, sameContents, sameRules, mayBeSet, parallel, built⟩
  have first := (kept_self mayBeSet).of_same sameContents sameRules
  exact ⟨groups, first.trans (kept_of_reaches parallel built.reaches first.within)⟩

theorem kept_initPort {provisioner : Provisioner} {node : PortNode} {report : PhaseReport}
    (within : (ofPort provisioner.switchId names node port ∅).Within start.contents)
    (ends : (provisioner.initPort names node port).Ends Memory.responder
      start report after) :
    ∃ groups, (ofPort provisioner.switchId names node port groups).Kept start after := by
  rcases ends_bind_iff.mp ends with ⟨maps, middle, bound, ends⟩
  rcases ends_bind_iff.mp ends with ⟨outcomes, last, built, ends⟩
  rcases ends_done_iff.mp ends with ⟨-, rfl⟩
  have first := kept_of_reaches parallel_bindPortMaps bound.reaches within
  cases declared : node.tree with
  | none =>
      rw [declared] at built
      rcases ends_done_iff.mp built with ⟨-, rfl⟩
      exact ⟨∅, first⟩
  | some tree =>
      rw [declared] at built
      rcases kept_applyTree rfl rfl
        (fun name _ => renames_self names.profiles name) first.within
        built with ⟨groups, second⟩
      exact ⟨groups, first.trans second⟩

end Trees

end Footprint

end SwitchQos
