import SwitchQos.Proofs.Provision.PortAgreement

namespace SwitchQos

/-! Trees on stores that know the same profiles under different ids. Groups and
queues then differ in nothing but the ids of the profiles that they are bound to,
before and after. -/

def ObjectClass.ofTree : ObjectClass → Bool
  | .schedulerGroup | .queue => true
  | _ => false

def Renamed (Renames : Nat → Nat → Prop) (left right : StoreValue) : Prop :=
  ∃ leftId rightId, Renames leftId rightId ∧ left = Storage.uint64.word leftId ∧
    right = Storage.uint64.word rightId

theorem rel_renamed {Renames : Nat → Nat → Prop} {left right : Option StoreValue}
    {leftId rightId : Nat} (isLeft : left = some (Storage.uint64.word leftId))
    (isRight : right = some (Storage.uint64.word rightId))
    (renamed : Renames leftId rightId) :
    Option.Rel (Renamed Renames) left right := by
  rw [isLeft, isRight]
  exact .some ⟨leftId, rightId, renamed, rfl, rfl⟩

theorem rel_or {Relation : StoreValue → StoreValue → Prop}
    {left right leftElse rightElse : Option StoreValue}
    (first : Option.Rel Relation left right)
    (second : Option.Rel Relation leftElse rightElse) :
    Option.Rel Relation (left.or leftElse) (right.or rightElse) := by
  cases first with
  | none => exact second
  | some related => exact .some related

theorem rel_imp {Left Right : Type} {Relation Other : Left → Right → Prop}
    {left : Option Left} {right : Option Right} (related : Option.Rel Relation left right)
    (weaker : ∀ left right, Relation left right → Other left right) :
    Option.Rel Other left right := by
  cases related with
  | none => exact .none
  | some related => exact .some (weaker _ _ related)

/-- The same object, and if a tree can be made of it, it differs at most in the
profile. -/
structure StoreObject.BoundAlike (Renames : Nat → Nat → Prop) (left right : StoreObject) :
    Prop where
  leftPlain : left.IsPlain
  rightPlain : right.IsPlain
  classPath : right.classPath = left.classPath
  entity : right.entity? = left.entity?
  others : ∀ objectClass : ObjectClass, objectClass.ofTree = true →
    left.classPath = objectClass.path →
      ∀ path, path ≠ objectClass.pathOf "scheduler-profile-id" →
      right.get? path = left.get? path
  profile : ∀ objectClass : ObjectClass, objectClass.ofTree = true →
    left.classPath = objectClass.path → Option.Rel (Renamed Renames)
      (left.get? (objectClass.pathOf "scheduler-profile-id"))
      (right.get? (objectClass.pathOf "scheduler-profile-id"))

namespace Footprint

variable {footprint : Footprint} {object other template left right : StoreObject}
  {objectClass : ObjectClass}

theorem Asks.assembled (asks : footprint.Asks template) :
    ∃ (objectClass : ObjectClass) (values : List (String × StoreValue)),
      objectClass.ofTree = true ∧ template = objectClass.assemble values ∧
      (∀ row ∈ values, objectClass.Has row.1) ∧ (values.map (·.1)).Nodup ∧
      ∀ row ∈ values, objectClass.pathOf row.1 ≠
        objectClass.pathOf "scheduler-profile-id" := by
  cases asks with
  | groups built =>
      rcases portSchedulerGroups_eq_ok_iff.mp built with ⟨-, -, rfl⟩
      exact ⟨.schedulerGroup, _, rfl, Authored.data_assembled, by simp; decide, by simp,
        by simp; decide⟩
  | queue _ built =>
      rcases queueObject_eq_ok_iff.mp built with ⟨-, -, -, code, -, rfl⟩
      exact ⟨.queue, _, rfl, Authored.data_assembled, by simp [QueueKey.attrs]; decide,
        by simp [QueueKey.attrs], by simp [QueueKey.attrs]; decide⟩

theorem Sets.others (sets : footprint.Sets object other)
    (ofTree : objectClass.ofTree = true)
    (isOf : object.classPath = objectClass.path) {path : String}
    (apart : path ≠ objectClass.pathOf "scheduler-profile-id") :
    other.get? path = object.get? path := by
  cases sets with
  | groupProfile | queueProfile =>
      cases ObjectClass.path_injective (ObjectClass.classPath_assemble.symm.trans isOf)
      exact (StoreObject.get?_insert_of_ne _ apart.symm _).trans
        (StoreObject.get?_insert_of_ne _ apart.symm _).symm
  | groupChildren | portMap => rfl

theorem Sets.profile (sets : footprint.Sets object other)
    (ofTree : objectClass.ofTree = true) (isOf : object.classPath = objectClass.path) :
    Option.Rel (Renamed footprint.Renames)
      (object.get? (objectClass.pathOf "scheduler-profile-id"))
      (other.get? (objectClass.pathOf "scheduler-profile-id")) := by
  cases sets with
  | groupProfile _ renamed | queueProfile _ _ renamed =>
      cases ObjectClass.path_injective (ObjectClass.classPath_assemble.symm.trans isOf)
      exact rel_renamed (StoreObject.get?_insert_self _ _ _)
        (StoreObject.get?_insert_self _ _ _) renamed
  | @groupChildren id count members =>
      cases ObjectClass.path_injective (ObjectClass.classPath_assemble.symm.trans isOf)
      have unwritten : (footprint.groupChildren id count members).get?
          (ObjectClass.schedulerGroup.pathOf "scheduler-profile-id") = none :=
        ObjectClass.get?_assemble_of_ne (by simp; decide)
      rw [unwritten]
      exact .none
  | @portMap direction =>
      cases ObjectClass.path_injective (ObjectClass.classPath_assemble.symm.trans isOf)
      cases direction <;> cases ofTree

theorem Sets.plain (sets : footprint.Sets object other) : object.IsPlain ∧
    other.IsPlain := by
  cases sets <;> exact ⟨ObjectClass.keyData_assemble, ObjectClass.keyData_assemble⟩

theorem Sets.boundAlike (sets : footprint.Sets object other)
    (alike : left.BoundAlike footprint.Renames right) :
    (object.updatedBy left).BoundAlike footprint.Renames (other.updatedBy right) := by
  have sameToo : other.SameEntity right ↔ object.SameEntity left := by
    rw [StoreObject.sameEntity_iff, StoreObject.sameEntity_iff,
      sets.entity?, alike.entity]
  by_cases same : object.SameEntity left
  · rcases sets.plain with ⟨objectPlain, otherPlain⟩
    have isOf {objectClass : ObjectClass} (leftOf : left.classPath = objectClass.path) :
        object.classPath = objectClass.path := by
      rcases same with ⟨entity, given, found⟩
      exact (StoreObject.entity?_eq_some_iff.mp given).1.trans
        ((StoreObject.entity?_eq_some_iff.mp found).1.symm.trans leftOf)
    refine ⟨StoreObject.isPlain_updatedBy.mpr alike.leftPlain,
      StoreObject.isPlain_updatedBy.mpr alike.rightPlain, ?_, ?_, ?_, ?_⟩
    · rw [StoreObject.classPath_updatedBy, StoreObject.classPath_updatedBy,
        alike.classPath]
    · rw [StoreObject.entity?_updatedBy alike.leftPlain,
        StoreObject.entity?_updatedBy alike.rightPlain, alike.entity]
    · intro objectClass ofTree leftOf path apart
      rw [StoreObject.classPath_updatedBy] at leftOf
      rw [StoreObject.get?_updatedBy, StoreObject.get?_updatedBy, if_pos same,
        if_pos (sameToo.mpr same), objectPlain.lookup, otherPlain.lookup,
        sets.others ofTree (isOf leftOf) apart, alike.others _ ofTree leftOf path apart]
    · intro objectClass ofTree leftOf
      rw [StoreObject.classPath_updatedBy] at leftOf
      rw [StoreObject.get?_updatedBy, StoreObject.get?_updatedBy, if_pos same,
        if_pos (sameToo.mpr same), objectPlain.lookup, otherPlain.lookup]
      exact rel_or (sets.profile ofTree (isOf leftOf)) (alike.profile _ ofTree leftOf)
  · rw [StoreObject.updatedBy, if_neg same, StoreObject.updatedBy,
      if_neg (mt sameToo.mp same)]
    exact alike

/-- Trees are built alike up to such ids. -/
theorem twins_boundAlike :
    footprint.Twins (StoreObject.BoundAlike footprint.Renames) where
  plain := fun alike => ⟨alike.leftPlain, alike.rightPlain⟩
  classPath := fun alike => alike.classPath
  entity := fun alike => alike.entity
  shows := by
    intro groups template left right asks alike isOf
    rcases asks.assembled with ⟨objectClass, values, ofTree, rfl, -⟩
    rw [ObjectClass.classPath_assemble] at isOf
    refine ⟨alike.classPath, fun otherClass otherOf attr isRead => ?_⟩
    cases ObjectClass.path_injective (otherOf.symm.trans isOf)
    have apart : objectClass.pathOf attr ≠ objectClass.pathOf "scheduler-profile-id" := by
      simp only [List.mem_cons, List.not_mem_nil, or_false] at isRead
      rcases isRead with rfl | rfl <;> cases objectClass <;> first | decide | cases ofTree
    rw [alike.leftPlain.lookup, alike.rightPlain.lookup,
      alike.others _ ofTree isOf _ apart]
  agrees := by
    intro groups template left right asks alike isOf
    rcases asks.assembled with ⟨objectClass, values, ofTree, rfl, hasAll, distinct, apart⟩
    rw [ObjectClass.classPath_assemble] at isOf
    rw [ObjectClass.agreesWith_assemble _ hasAll distinct,
      ObjectClass.agreesWith_assemble _ hasAll distinct, Bool.eq_iff_iff,
      List.all_eq_true, List.all_eq_true]
    refine forall₂_congr fun row member => ?_
    have same := alike.others _ ofTree isOf _ (apart row member)
    cases value : row.2 <;> simp [StoreObject.agreesWith.agrees, same]
  updated := by
    intro groups object other left right sets alike
    exact @Sets.boundAlike (footprint.withGroups groups) _ _ _ _ sets alike

end Footprint

end SwitchQos
