import Mathlib.Data.List.Sort
import SwitchQos.Proofs.Object.Provisioned
import SwitchQos.Proofs.Provision.Tasks
import SwitchQos.Proofs.Store.Operations
import SwitchQos.Provision.Scheduler

namespace SwitchQos

/-! Which scheduler groups are found on a port. The store answers in no particular
order, yet every level lists the ids of its groups in ascending order, each once. -/

/-! ## The index -/

namespace GroupIndex

variable {index : GroupIndex} {id other : Nat} {ids : List Nat}

theorem mem_insertId : other ∈ insertId id ids ↔ other = id ∨ other ∈ ids := by
  induction ids with
  | nil => simp [insertId]
  | cons first rest induction =>
      rw [insertId]
      split
      · simp
      · split
        · rename_i same
          simp [same]
        · simp only [List.mem_cons, induction]
          exact or_left_comm

theorem pairwise_insertId (ascending : ids.Pairwise (· < ·)) :
    (insertId id ids).Pairwise (· < ·) := by
  induction ascending with
  | nil => exact List.pairwise_singleton _ _
  | @cons first rest greater ascending induction =>
      rw [insertId]
      split
      · rename_i less
        refine .cons (fun other member => ?_) (.cons greater ascending)
        rcases List.mem_cons.mp member with rfl | later
        · exact less
        · exact less.trans (greater other later)
      · split
        · exact .cons greater ascending
        · rename_i notLess different
          refine .cons (fun other member => ?_) induction
          rcases mem_insertId.mp member with rfl | later
          · omega
          · exact greater other later

theorem level_insert {level wanted : Nat} :
    (index.insert level id).level wanted =
      if level = wanted then insertId id (index.level wanted)
        else index.level wanted := by
  simp only [GroupIndex.level, insert, Directory.get?_insert]
  split
  · rename_i same
    simp [same]
  · rfl

theorem level_foldl_insert (positions : List (Nat × Nat)) {level : Nat}
    (ascending : (index.level level).Pairwise (· < ·)) :
    let filled :=
  positions.foldl (fun index position => index.insert position.1 position.2) index
    (filled.level level).Pairwise (· < ·) ∧
      ∀ id, id ∈ filled.level level ↔ id ∈ index.level level ∨
      (level, id) ∈ positions := by
  induction positions generalizing index with
  | nil => exact ⟨ascending, by simp⟩
  | cons position rest induction =>
      rcases position with ⟨own, ownId⟩
      have next : ((index.insert own ownId).level level).Pairwise (· < ·) := by
        rw [level_insert]
        split
        · exact pairwise_insertId ascending
        · exact ascending
      rcases induction next with ⟨ordered, members⟩
      refine ⟨ordered, fun id => ?_⟩
      rw [List.foldl_cons, members, level_insert]
      by_cases same : own = level
      · simp only [same, if_true, mem_insertId, List.mem_cons, Prod.mk.injEq, true_and]
        exact or_assoc.trans or_left_comm
      · simp [same, Ne.symm same]

end GroupIndex

/-! ## Stored groups -/

namespace StoreObject

def IsGroup (port level id : Nat) (stored : StoreObject) : Prop :=
  stored.classPath = ObjectClass.schedulerGroup.path ∧
    ObjectClass.schedulerGroup.number? "port-id" stored = some port ∧
    ObjectClass.schedulerGroup.number? "level" stored = some level ∧
    ObjectClass.schedulerGroup.number? "id" stored = some id

instance {port level id : Nat} {stored : StoreObject} :
    Decidable (stored.IsGroup port level id) :=
  inferInstanceAs (Decidable (_ ∧ _))

def groupId? (port level : Nat) (stored : StoreObject) : Option Nat :=
  if stored.classPath = ObjectClass.schedulerGroup.path ∧
      ObjectClass.schedulerGroup.number? "port-id" stored = some port ∧
      ObjectClass.schedulerGroup.number? "level" stored = some level then
    ObjectClass.schedulerGroup.number? "id" stored
  else none

variable {stored : StoreObject} {port level id : Nat}

theorem groupId?_eq_some_iff :
    stored.groupId? port level = some id ↔ stored.IsGroup port level id := by
  rw [groupId?, IsGroup]
  split
  · rename_i holds
    simp [holds]
  · rename_i fails
    simp only [reduceCtorEq, false_iff]
    exact fun holds => fails ⟨holds.1, holds.2.1, holds.2.2.1⟩

theorem IsGroup.entity?_eq (isGroup : stored.IsGroup port level id) :
    stored.entity? = some ⟨.schedulerGroup, [Storage.uint64.word id]⟩ := by
  rcases isGroup with ⟨isOf, -, -, hasId⟩
  have found : ObjectClass.schedulerGroup.spec? "id" = some (.scalar .uint64) := rfl
  refine entity?_eq_some_iff.mpr ⟨isOf, ?_⟩
  rw [ObjectClass.identity?_eq_some_singleton
    (rfl : ObjectClass.schedulerGroup.keyAttrs = ["id"])]
  exact ⟨_, rfl, ((ObjectClass.number?_eq_some_iff found ⟨rfl, rfl⟩).mp hasId).2⟩

end StoreObject

namespace Contents

def groupIds (contents : Contents) (port level : Nat) : List Nat :=
  (contents.objects.filterMap (StoreObject.groupId? port level)).insertionSort (· ≤ ·)

variable {contents : Contents} {port level id : Nat}

theorem mem_groupIds :
    id ∈ contents.groupIds port level ↔
      ∃ stored ∈ contents.objects, stored.IsGroup port level id := by
  simp [groupIds, StoreObject.groupId?_eq_some_iff]

theorem groupIds_lt (member : id ∈ contents.groupIds port level) :
    id < countOfBits 64 := by
  have found : ObjectClass.schedulerGroup.spec? "id" = some (.scalar .uint64) := rfl
  rcases mem_groupIds.mp member with ⟨stored, -, -, -, -, hasId⟩
  exact ((ObjectClass.number?_eq_some_iff found ⟨rfl, rfl⟩).mp hasId).1

theorem pairwise_groupIds (distinct : Distinct contents.objects) :
    (contents.groupIds port level).Pairwise (· < ·) := by
  have different : (contents.objects.filterMap
      (StoreObject.groupId? port level)).Nodup := by
    refine List.pairwise_filterMap.mpr (distinct.imp fun {left right} apart => ?_)
    rintro id isLeft other isRight rfl
    exact apart _ (StoreObject.groupId?_eq_some_iff.mp isLeft).entity?_eq
      (StoreObject.groupId?_eq_some_iff.mp isRight).entity?_eq
  have sorted := List.pairwise_insertionSort (· ≤ ·)
    (contents.objects.filterMap (StoreObject.groupId? port level))
  have apart := (List.perm_insertionSort (· ≤ ·) _).nodup_iff.mpr different
  exact (sorted.and apart).imp fun {left right} both => Nat.lt_of_le_of_ne both.1 both.2

end Contents

/-! ## Discovery -/

/-- Every group of the port carries the switch id and can be read. -/
def Contents.GroupsReadable (contents : Contents) (switchId port : Nat) : Prop :=
  ∀ stored ∈ contents.objects, stored.classPath = ObjectClass.schedulerGroup.path →
    ObjectClass.schedulerGroup.number? "port-id" stored = some port →
    ObjectClass.schedulerGroup.number? "switch-id" stored = some switchId ∧
      (ObjectClass.schedulerGroup.number? "level" stored).isSome ∧
      (ObjectClass.schedulerGroup.number? "id" stored).isSome

instance {contents : Contents} {switchId port : Nat} :
    Decidable (contents.GroupsReadable switchId port) :=
  inferInstanceAs (Decidable (∀ stored ∈ contents.objects, _))

theorem Contents.GroupsReadable.exists_isGroup {contents : Contents} {switchId port : Nat}
    (readable : contents.GroupsReadable switchId port) {stored : StoreObject}
    (member : stored ∈ contents.objects)
    (isOf : stored.classPath = ObjectClass.schedulerGroup.path)
    (onPort : ObjectClass.schedulerGroup.number? "port-id" stored = some port) :
    ∃ level id, stored.IsGroup port level id := by
  rcases readable stored member isOf onPort with ⟨-, hasLevel, hasId⟩
  rcases Option.isSome_iff_exists.mp hasLevel with ⟨level, onLevel⟩
  rcases Option.isSome_iff_exists.mp hasId with ⟨id, isId⟩
  exact ⟨level, id, isOf, onPort, onLevel, isId⟩

namespace Scheduler

variable {scheduler : Scheduler} {port : Port} {memory : Memory}

theorem groupPosition_answer {stored : StoreObject} {name : String}
    {onPort level id : Nat} (plain : stored.IsPlain)
    (isGroup : stored.IsGroup onPort level id) :
    groupPosition name (stored.answer .schedulerGroup) = .ok (level, id) := by
  rcases isGroup with ⟨isOf, -, onLevel, hasId⟩
  have levelSpec : ObjectClass.schedulerGroup.spec? "level" =
    some (.scalar .uint32) := rfl
  have idSpec : ObjectClass.schedulerGroup.spec? "id" = some (.scalar .uint64) := rfl
  rw [plain.number?_eq_some_iff levelSpec ⟨rfl, rfl⟩,
    ← StoreObject.lookup_answer .schedulerGroup,
    ← ObjectClass.decode_uint_iff levelSpec ⟨rfl, rfl⟩] at onLevel
  rw [plain.number?_eq_some_iff idSpec ⟨rfl, rfl⟩,
    ← Record.id_answer_iff idSpec ⟨rfl, rfl⟩] at hasId
  have read : (Record.view .schedulerGroup (stored.answer .schedulerGroup)).attr "level" =
      .ok (some (.uint level)) := onLevel
  simp only [groupPosition, Record.wrap_answer isOf, read, hasId, Except.mapError,
    Results.ok_bind, Option.bind_some, AttrValue.asNat?]

theorem agreesWith_portGroups_iff {stored : StoreObject} {switchId onPort : Nat}
    (plain : stored.IsPlain) (switchFits : switchId < countOfBits 32)
    (portFits : onPort < countOfBits 32) :
    stored.agreesWith (ObjectClass.schedulerGroup.assemble
        [("port-id", Storage.uint32.word onPort),
          ("switch-id", Storage.uint32.word switchId)]) =
        true ↔
      ObjectClass.schedulerGroup.number? "port-id" stored = some onPort ∧
        ObjectClass.schedulerGroup.number? "switch-id" stored = some switchId := by
  have portSpec : ObjectClass.schedulerGroup.spec? "port-id" =
    some (.scalar .uint32) := rfl
  have switchSpec : ObjectClass.schedulerGroup.spec? "switch-id" =
    some (.scalar .uint32) := rfl
  rw [ObjectClass.agreesWith_assemble stored (by simp; decide) (by simp),
    plain.number?_eq_some_iff portSpec ⟨rfl, rfl⟩,
    plain.number?_eq_some_iff switchSpec ⟨rfl, rfl⟩]
  simp only [List.all_cons, List.all_nil, Bool.and_true, ObjectClass.agrees_word,
    Bool.and_eq_true, decide_eq_true_eq]
  constructor
  · rintro ⟨hasPort, hasSwitch⟩
    exact ⟨⟨portFits, hasPort⟩, ⟨switchFits, hasSwitch⟩⟩
  · rintro ⟨⟨-, hasPort⟩, ⟨-, hasSwitch⟩⟩
    exact ⟨hasPort, hasSwitch⟩

theorem portGroups_ends (switchFits : scheduler.switchId < countOfBits 32)
    (portFits : port.ifindex < countOfBits 32) (available : memory.unavailable = 0)
    (plain : ∀ stored ∈ memory.contents.objects, stored.IsPlain)
    (readable : memory.contents.GroupsReadable scheduler.switchId port.ifindex) :
    ∃ matching : List StoreObject,
      (scheduler.portGroups port.ifindex).run.Ends Memory.responder memory
        (.ok (matching.map (StoreObject.answer .schedulerGroup))) memory ∧
      ∀ stored, stored ∈ matching ↔
        stored ∈ memory.contents.objects ∧
        ∃ level id, stored.IsGroup port.ifindex level id := by
  have template := portSchedulerGroups_eq_ok_iff.mpr ⟨switchFits, portFits, rfl⟩
  have answered := Memory.query_eq (Authored.assembled .schedulerGroup
    [("port-id", Storage.uint32.word port.ifindex),
     ("switch-id", Storage.uint32.word scheduler.switchId)]).data available
    ObjectClass.classPath_assemble (by simp)
  refine ⟨_, Task.ends_bind (Task.ends_ofCodec template) (Task.ends_query answered),
    fun stored => ?_⟩
  rw [Authored.data_assembled, List.mem_filter, Contents.mem_ofClass_iff]
  constructor
  · rintro ⟨⟨isStored, isOf⟩, agrees⟩
    have onPort :=
      ((agreesWith_portGroups_iff (plain stored isStored) switchFits
        portFits).mp agrees).1
    exact ⟨isStored, readable.exists_isGroup isStored isOf onPort⟩
  · rintro ⟨isStored, level, id, isGroup⟩
    have onSwitch := (readable stored isStored isGroup.1 isGroup.2.1).1
    exact ⟨⟨isStored, isGroup.1⟩,
      (agreesWith_portGroups_iff (plain stored isStored) switchFits
      portFits).mpr ⟨isGroup.2.1, onSwitch⟩⟩

theorem readGroups_ends (switchFits : scheduler.switchId < countOfBits 32)
    (portFits : port.ifindex < countOfBits 32) (available : memory.unavailable = 0)
    (plain : ∀ stored ∈ memory.contents.objects, stored.IsPlain)
    (distinct : Contents.Distinct memory.contents.objects)
    (readable : memory.contents.GroupsReadable scheduler.switchId port.ifindex) :
    ∃ index, (scheduler.readGroups port).run.Ends Memory.responder memory
      (.ok index) memory ∧
      ∀ level, index.level level = memory.contents.groupIds port.ifindex level := by
  rcases portGroups_ends switchFits portFits available plain readable with
      ⟨matching, asked, isAsked⟩
  have readable : ∀ answer ∈ matching.map (StoreObject.answer .schedulerGroup),
      ∃ position, groupPosition port.name answer = .ok position := by
    intro answer isAnswer
    rcases List.mem_map.mp isAnswer with ⟨stored, member, rfl⟩
    rcases (isAsked stored).mp member with ⟨isStored, level, id, isGroup⟩
    exact ⟨_, groupPosition_answer (plain stored isStored) isGroup⟩
  rcases Results.exists_mapM readable with ⟨positions, read, members⟩
  have listed : ∀ level id, (level, id) ∈ positions ↔
      ∃ stored ∈ memory.contents.objects, stored.IsGroup port.ifindex level id := by
    intro level id
    rw [members]
    constructor
    · rintro ⟨answer, isAnswer, position⟩
      rcases List.mem_map.mp isAnswer with ⟨stored, member, rfl⟩
      rcases (isAsked stored).mp member with ⟨isStored, ownLevel, ownId, isGroup⟩
      rw [groupPosition_answer (plain stored isStored) isGroup] at position
      cases position
      exact ⟨stored, isStored, isGroup⟩
    · rintro ⟨stored, isStored, isGroup⟩
      exact ⟨_, List.mem_map_of_mem ((isAsked stored).mpr ⟨isStored, level, id, isGroup⟩),
        groupPosition_answer (plain stored isStored) isGroup⟩
  refine ⟨_, Task.ends_bind asked
    (Task.ends_bind (Task.ends_done read) (Task.ends_pure _)),
    fun level => ?_⟩
  have none : (({} : GroupIndex).level level).Pairwise (· < ·) := .nil
  rcases GroupIndex.level_foldl_insert positions none with ⟨ascending, mem_level⟩
  apply List.Pairwise.eq_of_mem_iff ascending (Contents.pairwise_groupIds distinct)
  intro id
  rw [mem_level, Contents.mem_groupIds, listed]
  exact or_iff_right List.not_mem_nil

end Scheduler

end SwitchQos
