import Mathlib.Data.List.Pairwise
import SwitchQos.Proofs.Store.Seeding

namespace SwitchQos

/-! The ids of groups and queues in a store that is seeded from a topology. They are
handed out one after the other, so each belongs to a single group or queue, even where
several ports of the topology are one and the same. -/

namespace StoreObject

variable {stored : StoreObject} {objectClass : ObjectClass}

def treeId? (stored : StoreObject) : Option Nat := do
  let objectClass ← ObjectClass.ofPath? stored.classPath
  if objectClass.ofTree then objectClass.number? "id" stored else none

theorem treeId?_eq (isOf : stored.classPath = objectClass.path) :
    stored.treeId? = if objectClass.ofTree then
      objectClass.number? "id" stored else none := by
  have found := ObjectClass.ofPath?_eq_some_iff.mpr isOf.symm
  simp only [treeId?, found, Option.bind_eq_bind, Option.bind_some]

theorem treeId?_assemble {values : List (String × StoreValue)} {id : Nat}
    (isTree : objectClass.ofTree = true) (hasAll : ∀ row ∈ values, objectClass.Has row.1)
    (found : objectClass.spec? "id" = some (.scalar .uint64)) (fits : id < countOfBits 64)
    (hasId : Directory.findRow "id" values = some (Storage.uint64.word id)) :
    (objectClass.assemble values).treeId? = some id := by
  have plain : (objectClass.assemble values).IsPlain := ObjectClass.keyData_assemble
  rw [treeId?_eq ObjectClass.classPath_assemble, if_pos isTree,
    plain.number?_eq_some_iff found ⟨rfl, rfl⟩,
    ObjectClass.get?_assemble (.of_spec? found) hasAll]
  exact ⟨fits, hasId⟩

end StoreObject

def Contents.treeIds (contents : Contents) : List Nat :=
  contents.objects.filterMap StoreObject.treeId?

theorem Contents.unique_of_treeIds {contents : Contents} (apart : contents.treeIds.Nodup)
    {left right : StoreObject} {id : Nat} (isLeft : left ∈ contents.objects)
    (isRight : right ∈ contents.objects) (leftId : left.treeId? = some id)
    (rightId : right.treeId? = some id) : left = right := by
  by_contra different
  have pairs := List.pairwise_filterMap.mp apart
  have symmetric : Std.Symm fun first second : StoreObject =>
    ∀ id, first.treeId? = some id →
      ∀ other, second.treeId? = some other → id ≠ other :=
    ⟨fun first second others id isId other isOther => (others other isOther id isId).symm⟩
  exact pairs.forall isLeft isRight different id leftId id rightId rfl

namespace Memory

structure HandsOut (reserved : List Nat) (memory : Memory) : Prop where
  plain : ∀ stored ∈ memory.contents.objects, stored.IsPlain
  apart : (reserved ++ memory.contents.treeIds).Nodup
  below : ∀ id ∈ reserved ++ memory.contents.treeIds, id < memory.contents.nextId

variable {reserved : List Nat} {memory : Memory} {object : StoreObject} {id port : Nat}

theorem HandsOut.takeId (handsOut : memory.HandsOut reserved) :
    memory.takeId.2.HandsOut (memory.contents.nextId :: reserved) where
  plain := handsOut.plain
  apart :=
    List.nodup_cons.mpr ⟨fun member => (handsOut.below _ member).false, handsOut.apart⟩
  below := List.forall_mem_cons.mpr ⟨Nat.lt_succ_self _, fun id member =>
    Nat.lt_succ_of_lt (handsOut.below id member)⟩

theorem HandsOut.seed (handsOut : memory.HandsOut (object.treeId?.toList ++ reserved))
    (plain : object.IsPlain) : (memory.seed object).HandsOut reserved := by
  have added : (memory.seed object).contents.treeIds =
      memory.contents.treeIds ++ object.treeId?.toList := by
    change (memory.contents.objects ++ [object]).filterMap _ = _
    rw [List.filterMap_append, Contents.treeIds]
    cases isId : object.treeId? <;> simp [isId]
  have same : (reserved ++ (memory.seed object).contents.treeIds).Perm
      (object.treeId?.toList ++ reserved ++ memory.contents.treeIds) := by
    rw [added, ← List.append_assoc, List.append_assoc object.treeId?.toList]
    exact List.perm_append_comm
  refine ⟨fun stored member => ?_, same.nodup_iff.mpr handsOut.apart,
    fun id member => handsOut.below id (same.mem_iff.mp member)⟩
  rcases List.mem_append.mp member with old | new
  · exact handsOut.plain stored old
  · exact List.mem_singleton.mp new ▸ plain

open Seeding

theorem HandsOut.seed_of_none (handsOut : memory.HandsOut reserved)
    (plain : object.IsPlain) (none : object.treeId? = none) :
    (memory.seed object).HandsOut reserved :=
  HandsOut.seed (by rwa [none]) plain

theorem HandsOut.seed_of_some (handsOut : memory.HandsOut (id :: reserved))
    (plain : object.IsPlain) (isId : object.treeId? = some id) :
    (memory.seed object).HandsOut reserved :=
  HandsOut.seed (by rwa [isId]) plain

theorem handsOut_addPortObjects :
    Ensures (HandsOut reserved) (addPortObjects port) fun _ => HandsOut reserved := by
  have loop := @ensures_forIn Direction fun _ => HandsOut reserved
  refine ensures_get_bind fun memory => ensures_bind (loop (fun direction others => ?_)
    [.ingress, .egress]) fun _ => ensures_pure fun _ holds => holds
  refine ensures_lift_bind fun object built =>
    ensures_bind (ensures_modify fun memory holds => ?_)
    fun _ => ensures_pure fun _ holds => ⟨rfl, holds⟩
  rcases portObject_eq_ok_iff.mp built with ⟨-, -, rfl⟩
  refine holds.seed_of_none ObjectClass.keyData_assemble
    ((StoreObject.treeId?_eq ObjectClass.classPath_assemble).trans ?_)
  cases direction <;> rfl

theorem treeId?_of_seededGroup {switchId level : Nat} {group : StoreObject}
    (built : seededGroup switchId port level id = .ok group) :
    group.IsPlain ∧ group.treeId? = some id := by
  have found : ObjectClass.schedulerGroup.spec? "id" = some (.scalar .uint64) := rfl
  rcases seededGroup_eq_ok built with ⟨fits, _, rfl, -, isEntity, -⟩
  have identified := (StoreObject.entity?_eq_some_iff.mp isEntity).2
  simp only [ObjectClass.identity?_eq_some_iff, ObjectClass.keyAttrs,
    List.forall₂_cons] at identified
  refine ⟨ObjectClass.keyData_assemble,
    (StoreObject.treeId?_eq ObjectClass.classPath_assemble).trans ?_⟩
  exact (ObjectClass.number?_eq_some_iff found ⟨rfl, rfl⟩).mpr ⟨fits, identified.1⟩

theorem handsOut_addSchedulerGroups {level count : Nat} :
    Ensures (HandsOut reserved) (addSchedulerGroups port level count)
      fun _ => HandsOut reserved := by
  -- All ids are taken before the first group is stored.
  have taking : Ensures (HandsOut reserved)
    ((List.range count).mapM fun _ => modifyGet takeId)
      fun ids => HandsOut (ids.reverse ++ reserved) := by
    refine @ensures_mapM Nat Nat (fun _ ids => HandsOut (ids.reverse ++ reserved)) _
      (fun _ _ ids => ensures_takeId fun memory holds => ?_) (List.range count) []
    rw [List.reverse_append]
    exact holds.takeId
  have loop := @ensures_forIn Nat fun ids => HandsOut (ids ++ reserved)
  refine ensures_bind taking fun ids => ensures_get_bind fun memory => ensures_bind
    (loop (fun id others => ?_) ids.reverse) fun _ => ensures_pure fun _ holds => holds
  refine ensures_lift_bind fun group built =>
    ensures_bind (ensures_modify fun memory holds => ?_)
    fun _ => ensures_pure fun _ holds => ⟨rfl, holds⟩
  rcases treeId?_of_seededGroup built with ⟨plain, isId⟩
  exact holds.seed_of_some plain isId

theorem handsOut_addQueues {queueType : String} {count : Nat} :
    Ensures (HandsOut reserved) (addQueues port queueType count) fun _ =>
      HandsOut reserved := by
  refine @ensures_mapM Nat Nat (fun _ _ => HandsOut reserved) _ (fun number _ _ => ?_)
    (List.range count) []
  have taken : Ensures (HandsOut reserved) (modifyGet takeId) fun id =>
    HandsOut (id :: reserved) :=
    ensures_takeId fun memory holds => holds.takeId
  refine ensures_bind taken fun id => ensures_get_bind fun memory => ensures_lift_bind
    fun address built => ensures_lift_bind fun queue written => ensures_bind
      (ensures_modify fun memory holds => ?_) fun _ => ensures_pure fun _ holds => holds
  rcases queueObject_eq_ok_iff.mp built with ⟨-, -, -, code, -, rfl⟩
  have found : ObjectClass.queue.spec? "id" = some (.scalar .uint64) := rfl
  rcases (Authored.set_uint_eq_ok_iff found ⟨rfl, rfl⟩).mp written with ⟨fits, rfl⟩
  refine holds.seed_of_some ObjectClass.keyData_assemble
    (StoreObject.treeId?_assemble rfl ?_ found fits rfl)
  simp [QueueKey.attrs]
  decide

theorem handsOut_addPort {owner : TopologyPort} :
    Ensures (HandsOut reserved) (addPort owner) fun _ => HandsOut reserved := by
  have loop := @ensures_forIn (Nat × Nat) fun _ => HandsOut reserved
  refine ensures_bind handsOut_addPortObjects fun _ =>
    ensures_bind (loop (fun levels _ => ?_) owner.schedulerGroups.zipIdx) fun _ => ?_
  · exact ensures_bind handsOut_addSchedulerGroups fun _ =>
      ensures_pure fun _ holds => ⟨rfl, holds⟩
  · exact ensures_bind handsOut_addQueues fun _ =>
      ensures_bind handsOut_addQueues fun _ =>
      ensures_pure fun _ holds => holds

/-- In a store that is seeded no id occurs twice. -/
theorem handsOut_of_ofTopology {switchId : Nat} {topology : Topology}
    (built : ofTopology switchId topology = .ok memory) : memory.HandsOut [] := by
  rw [ofTopology] at built
  cases ran : (topology.ports.forM addPort).run (Memory.new switchId) with
  | mk result last =>
      rw [ran] at built
      cases result with
      | error cause => cases built
      | ok _ =>
          simp only [Except.ok.injEq] at built
          rw [← built]
          have start : (Memory.new switchId).HandsOut [] :=
            ⟨by simp [Memory.new], .nil, by simp [Memory.new, Contents.treeIds]⟩
          have loop := @ensures_forM TopologyPort (fun _ => HandsOut []) addPort
            (fun _ _ => handsOut_addPort) topology.ports
          exact { loop _ _ _ start ran with }

end Memory

end SwitchQos
