import Mathlib.Data.Set.Insert
import SwitchQos.Proofs.Store.FiniteMap

namespace SwitchQos

/-! What a series of settings makes of the stored objects. Every setting writes the
attributes of the object that is given over those of the entity it stands for. As long
as settings of one entity agree with each other, their order does not matter: the
objects that were given decide all that has changed. -/

namespace StoreObject

def SameEntity (left right : StoreObject) : Prop :=
  ∃ entity, left.entity? = some entity ∧ right.entity? = some entity

def Agrees (left right : StoreObject) : Prop :=
  ∀ path value other, left.get? path = some value →
  right.get? path = some other → value = other

structure OverwrittenBy (given : Set StoreObject) (old new : StoreObject) : Prop where
  classPath : new.classPath = old.classPath
  plain : new.IsPlain
  entity : new.entity? = old.entity?
  written : ∀ object ∈ given, object.SameEntity old → ∀ path value,
    object.get? path = some value → new.get? path = some value
  kept : ∀ path, (∀ object ∈ given, object.SameEntity old → object.get? path = none) →
    new.get? path = old.get? path

variable {given : Set StoreObject} {old new object : StoreObject}

theorem overwrittenBy_empty (plain : old.IsPlain) : OverwrittenBy ∅ old old :=
  ⟨rfl, plain, rfl, fun _ member => absurd member (Set.notMem_empty _), fun _ _ => rfl⟩

end StoreObject

namespace Contents

open StoreObject

variable {objectClass : ObjectClass} {given : Set StoreObject}
  {old new object : StoreObject}

theorem addressed_iff_sameEntity (isOf : object.classPath = objectClass.path) :
    addressed objectClass object new = true ↔ object.SameEntity new := by
  rw [addressed_iff]
  constructor
  · rintro ⟨key, identified, found⟩
    exact ⟨⟨objectClass, key⟩, entity?_eq_some_iff.mpr ⟨isOf, identified⟩, found⟩
  · rintro ⟨entity, objectFound, newFound⟩
    rcases entity?_eq_some_iff.mp objectFound with ⟨samePath, identified⟩
    have sameClass : objectClass = entity.objectClass :=
      ObjectClass.path_injective (isOf.symm.trans samePath)
    subst sameClass
    exact ⟨entity.key, identified, newFound⟩

/-- One more object is set, and it agrees with those set before. -/
theorem overwrittenBy_insert (overwritten : OverwrittenBy given old new)
    (plain : object.IsPlain) (isOf : object.classPath = objectClass.path)
    (agree : object.SameEntity old → ∀ other ∈ given, other.SameEntity old →
      other.Agrees object) :
    OverwrittenBy (insert object given) old
      (Contents.overwritten objectClass object new) := by
  have hit : addressed objectClass object new = true ↔ object.SameEntity old := by
    rw [addressed_iff_sameEntity isOf, SameEntity, SameEntity, overwritten.entity]
  refine ⟨?_, isPlain_overwritten overwritten.plain,
    (entity?_overwritten overwritten.plain).trans overwritten.entity, ?_, ?_⟩
  · rw [Contents.overwritten]
    split <;> exact overwritten.classPath
  · intro other member same path value has
    rw [Contents.overwritten]
    split
    · rename_i isHit
      rw [plain.get?_mergeFrom]
      cases written : object.get? path with
      | none =>
          rcases Set.mem_insert_iff.mp member with rfl | earlier
          · rw [has] at written
            cases written
          · exact overwritten.written other earlier same path value has
      | some last =>
          rcases Set.mem_insert_iff.mp member with rfl | earlier
          · rw [← has, written]
            rfl
          · rw [agree (hit.mp isHit) other earlier same path value last has written]
            rfl
    · rename_i missed
      rcases Set.mem_insert_iff.mp member with rfl | earlier
      · exact absurd (hit.mpr same) missed
      · exact overwritten.written other earlier same path value has
  · intro path unwritten
    have before := overwritten.kept path fun other member =>
      unwritten other (Set.mem_insert_of_mem _ member)
    rw [Contents.overwritten]
    split
    · rename_i isHit
      rw [plain.get?_mergeFrom, unwritten object (Set.mem_insert _ _) (hit.mp isHit)]
      exact before
    · exact before

/-! ## Lists of objects -/

section Related

variable {start objects : List StoreObject}

theorem distinct_of_related (related : List.Forall₂ (OverwrittenBy given) start objects)
    (distinct : Distinct start) : Distinct objects :=
  distinct.congr (related.imp fun _ _ overwritten => overwritten.entity)

theorem related_empty (plain : ∀ stored ∈ start, stored.IsPlain) :
    List.Forall₂ (OverwrittenBy ∅) start start :=
  List.forall₂_same.mpr fun stored member => overwrittenBy_empty (plain stored member)

theorem related_insert (related : List.Forall₂ (OverwrittenBy given) start objects)
    (plain : object.IsPlain) (isOf : object.classPath = objectClass.path)
    (agree : ∀ old ∈ start, object.SameEntity old →
      ∀ other ∈ given, other.SameEntity old →
      other.Agrees object) :
    List.Forall₂ (OverwrittenBy (insert object given)) start
      (objects.map (overwritten objectClass object)) := by
  induction related with
  | nil => exact .nil
  | cons first others induction =>
      refine .cons (overwrittenBy_insert first plain isOf (agree _ List.mem_cons_self)) ?_
      exact induction fun old member => agree old (List.mem_cons_of_mem _ member)

end Related

end Contents

/-! ## In a store -/

namespace Memory

open StoreObject Contents

structure Overwritten (start : Memory) (given : Set StoreObject)
    (memory : Memory) : Prop where
  rules : memory.rules = start.rules
  unavailable : memory.unavailable = start.unavailable
  nextId : memory.contents.nextId = start.contents.nextId
  objects : List.Forall₂ (OverwrittenBy given) start.contents.objects
    memory.contents.objects

variable {start memory : Memory} {given : Set StoreObject} {object old : StoreObject}

theorem overwritten_empty (plain : ∀ stored ∈ start.contents.objects, stored.IsPlain) :
    start.Overwritten ∅ start := ⟨rfl, rfl, rfl, related_empty plain⟩

theorem Overwritten.set (overwritten : start.Overwritten given memory)
    (unruled : start.rules = []) (distinct : Distinct start.contents.objects)
    (plain : object.IsPlain) (member : old ∈ start.contents.objects)
    (same : object.SameEntity old)
    (agree : ∀ old ∈ start.contents.objects, object.SameEntity old → ∀ other ∈ given,
      other.SameEntity old → other.Agrees object) :
    ∃ answers after, memory.transact [⟨.set, object⟩] = (.ok answers, after) ∧
      start.Overwritten (insert object given) after := by
  rcases same with ⟨⟨objectClass, key⟩, objectFound, oldFound⟩
  have isOf := (entity?_eq_some_iff.mp objectFound).1
  rcases Results.exists_right overwritten.objects member with
    ⟨stored, storedMember, storedBy⟩
  have hit : addressed objectClass object stored = true :=
    (addressed_iff_sameEntity isOf).mpr ⟨_, objectFound, storedBy.entity.trans oldFound⟩
  have carried := (set_eq_ok_iff (distinct_of_related overwritten.objects distinct)).mpr
    ⟨stored, storedMember, hit, rfl, rfl⟩
  have accepted :=
    transact_of_carryOut ⟨.set, object⟩ (overwritten.rules.trans unruled) isOf
    carried
  exact ⟨_, _, accepted, overwritten.rules, overwritten.unavailable, overwritten.nextId,
    related_insert overwritten.objects plain isOf agree⟩

end Memory

end SwitchQos
