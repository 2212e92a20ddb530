import Mathlib.Data.List.Forall2
import SwitchQos.Proofs.Object.KeyData
import SwitchQos.Proofs.Results
import SwitchQos.Proofs.Schema.Paths

namespace SwitchQos

/-! An entity is a class together with values for its key attributes. A stored
object stands for the entity whose keys it carries, and an operation addresses the
objects of one entity. -/

structure Entity where
  objectClass : ObjectClass
  key : List StoreValue
  deriving DecidableEq

namespace ObjectClass

variable {objectClass : ObjectClass} {object left right : StoreObject}
  {key : List StoreValue}

theorem identity?_eq_some_iff :
    objectClass.identity? object = some key ↔
      List.Forall₂ (fun attr value =>
        object.lookup (objectClass.pathOf attr) = some value)
        objectClass.keyAttrs key := by
  rw [identity?, Results.mapM_eq_some_iff, keyPaths_eq, List.forall₂_map_left_iff]

theorem identity?_eq_some_singleton {attr : String}
    (single : objectClass.keyAttrs = [attr]) :
    objectClass.identity? object = some key ↔
      ∃ value, key = [value] ∧ object.lookup (objectClass.pathOf attr) = some value := by
  rw [identity?_eq_some_iff, single]
  constructor
  · intro related
    cases related with
    | cons found none =>
        cases none
        exact ⟨_, rfl, found⟩
  · rintro ⟨value, rfl, found⟩
    exact .cons found .nil

theorem sameEntity_iff :
    objectClass.sameEntity left right = true ↔
      ∃ key, objectClass.identity? left = some key ∧
      objectClass.identity? right = some key := by
  rw [sameEntity]
  cases objectClass.identity? left <;>
    cases objectClass.identity? right <;> simp [eq_comm]

theorem identity?_congr
    (same : ∀ attr ∈ objectClass.keyAttrs,
      left.lookup (objectClass.pathOf attr) = right.lookup (objectClass.pathOf attr)) :
    objectClass.identity? left = objectClass.identity? right := by
  rw [identity?, identity?, keyPaths_eq]
  generalize objectClass.keyAttrs = attrs at same
  induction attrs with
  | nil => rfl
  | cons attr rest induction =>
      have others :=
        induction fun attr member => same attr (List.mem_cons_of_mem _ member)
      rw [List.map_cons, List.mapM_cons, List.mapM_cons,
        same attr List.mem_cons_self, others]

theorem lookup_eq_of_identity?_eq {left right : StoreObject}
    (leftKey : objectClass.identity? left = some key)
    (rightKey : objectClass.identity? right = some key) {attr : String}
    (isKey : attr ∈ objectClass.keyAttrs) :
    left.lookup (objectClass.pathOf attr) = right.lookup (objectClass.pathOf attr) := by
  rw [identity?_eq_some_iff] at leftKey rightKey
  generalize objectClass.keyAttrs = attrs at *
  induction leftKey with
  | nil => cases isKey
  | cons found _ induction =>
      cases rightKey with
      | cons otherFound others =>
          rcases List.mem_cons.mp isKey with rfl | later
          · rw [found, otherFound]
          · exact induction others later

theorem exists_identity?
    (keyed : ∀ attr ∈ objectClass.keyAttrs,
      (object.lookup (objectClass.pathOf attr)).isSome) :
    ∃ key, objectClass.identity? object = some key := by
  simp only [identity?_eq_some_iff]
  generalize objectClass.keyAttrs = attrs at *
  induction attrs with
  | nil => exact ⟨[], .nil⟩
  | cons attr rest induction =>
      rcases Option.isSome_iff_exists.mp
        (keyed attr List.mem_cons_self) with ⟨value, found⟩
      rcases induction fun attr member =>
        keyed attr (List.mem_cons_of_mem _ member) with ⟨others, related⟩
      exact ⟨value :: others, .cons found related⟩

theorem sameEntity_iff_agree :
    objectClass.sameEntity left right = true ↔
      ∀ attr ∈ objectClass.keyAttrs, ∃ value,
        left.lookup (objectClass.pathOf attr) = some value ∧
          right.lookup (objectClass.pathOf attr) = some value := by
  rw [sameEntity_iff]
  constructor
  · rintro ⟨key, leftKey, rightKey⟩ attr isKey
    have same := lookup_eq_of_identity?_eq leftKey rightKey isKey
    rcases Results.exists_right (identity?_eq_some_iff.mp leftKey) isKey with
      ⟨value, -, found⟩
    exact ⟨value, found, same.symm.trans found⟩
  · intro agree
    have keyed : ∀ attr ∈ objectClass.keyAttrs,
        (left.lookup (objectClass.pathOf attr)).isSome := by
      intro attr isKey
      rcases agree attr isKey with ⟨value, found, -⟩
      exact Option.isSome_of_eq_some found
    rcases exists_identity? keyed with ⟨key, leftKey⟩
    have same : objectClass.identity? left = objectClass.identity? right := by
      apply identity?_congr
      intro attr isKey
      rcases agree attr isKey with ⟨value, found, otherFound⟩
      exact found.trans otherFound.symm
    exact ⟨key, leftKey, same ▸ leftKey⟩

theorem identity?_mergeFrom (plain : left.IsPlain)
    (leftKey : objectClass.identity? left = some key)
    (rightKey : objectClass.identity? right = some key) :
    objectClass.identity? (left.mergeFrom right) = some key := by
  rw [← leftKey]
  apply identity?_congr
  intro attr isKey
  rw [(plain.mergeFrom right).lookup, StoreObject.get?_mergeFrom, plain.lookup,
    lookup_eq_of_identity?_eq rightKey leftKey isKey, plain.lookup, Option.or_self]

end ObjectClass

/-! ## Addressing -/

namespace StoreObject

/-- The entity that a stored object stands for, if it has all keys. -/
def entity? (object : StoreObject) : Option Entity := do
  let objectClass ← ObjectClass.ofPath? object.classPath
  let key ← objectClass.identity? object
  return ⟨objectClass, key⟩

theorem entity?_eq_some_iff {object : StoreObject} {entity : Entity} :
    object.entity? = some entity ↔
      object.classPath = entity.objectClass.path ∧
        entity.objectClass.identity? object = some entity.key := by
  rcases entity with ⟨objectClass, key⟩
  simp only [entity?, Option.bind_eq_bind, Option.bind_eq_some_iff, Option.pure_def,
    Option.some.injEq, Entity.mk.injEq, ObjectClass.ofPath?_eq_some_iff]
  constructor
  · rintro ⟨found, samePath, otherKey, identified, rfl, rfl⟩
    exact ⟨samePath.symm, identified⟩
  · rintro ⟨samePath, identified⟩
    exact ⟨objectClass, samePath.symm, key, identified, rfl, rfl⟩

end StoreObject

namespace Contents

variable {contents : Contents} {objectClass : ObjectClass} {object stored : StoreObject}
  {objects : List StoreObject}

theorem mem_ofClass_iff :
    stored ∈ contents.ofClass objectClass ↔
      stored ∈ contents.objects ∧ stored.classPath = objectClass.path := by
  rw [ofClass, List.mem_filter, decide_eq_true_eq]

theorem addressed_iff :
    addressed objectClass object stored = true ↔
      ∃ key, objectClass.identity? object = some key ∧
        stored.entity? = some ⟨objectClass, key⟩ := by
  simp only [addressed, Bool.and_eq_true, decide_eq_true_eq, ObjectClass.sameEntity_iff,
    StoreObject.entity?_eq_some_iff]
  constructor
  · rintro ⟨isOf, key, storedKey, identified⟩
    exact ⟨key, identified, isOf, storedKey⟩
  · rintro ⟨key, identified, isOf, storedKey⟩
    exact ⟨isOf, key, storedKey, identified⟩

theorem addressed_of_identity? {key : List StoreValue}
    (identified : objectClass.identity? object = some key) :
    addressed objectClass object stored = true ↔
    stored.entity? = some ⟨objectClass, key⟩ := by
  simp [addressed_iff, identified]

def Distinct (objects : List StoreObject) : Prop :=
  objects.Pairwise fun left right =>
    ∀ entity, left.entity? = some entity → right.entity? ≠ some entity

theorem distinct_iff : Distinct objects ↔ objects.Pairwise fun left right =>
    left.entity?.isSome → right.entity? ≠ left.entity? := by
  refine List.Pairwise.iff fun left right => ?_
  cases left.entity? <;> simp

instance : Decidable (Distinct objects) := decidable_of_iff _ distinct_iff.symm

theorem distinct_of_classPaths (apart : (objects.map (·.classPath)).Nodup) :
    Distinct objects := by
  apply (List.pairwise_map.mp apart).imp
  intro left right different entity found otherFound
  have leftPath := (StoreObject.entity?_eq_some_iff.mp found).1
  have rightPath := (StoreObject.entity?_eq_some_iff.mp otherFound).1
  exact different (leftPath.trans rightPath.symm)

theorem Distinct.eq_of_entity? (distinct : Distinct objects) {left right : StoreObject}
    {entity : Entity} (leftMember : left ∈ objects) (rightMember : right ∈ objects)
    (leftEntity : left.entity? = some entity)
    (rightEntity : right.entity? = some entity) :
    left = right := by
  induction distinct with
  | nil => cases leftMember
  | cons apart _ induction =>
      rcases List.mem_cons.mp leftMember with rfl | leftLater
      · rcases List.mem_cons.mp rightMember with rfl | rightLater
        · rfl
        · exact absurd rightEntity (apart _ rightLater _ leftEntity)
      · rcases List.mem_cons.mp rightMember with rfl | rightLater
        · exact absurd leftEntity (apart _ leftLater _ rightEntity)
        · exact induction leftLater rightLater

theorem Distinct.ofClass (distinct : Distinct contents.objects) :
    (contents.ofClass objectClass).Pairwise fun left right =>
      objectClass.sameEntity left right = false := by
  have kept : (contents.ofClass objectClass).Pairwise fun left right =>
      ∀ entity, left.entity? = some entity → right.entity? ≠ some entity :=
    List.Pairwise.filter _ distinct
  refine kept.imp_of_mem ?_
  intro left right leftMember rightMember apart
  rw [Bool.eq_false_iff]
  intro same
  rcases ObjectClass.sameEntity_iff.mp same with ⟨key, leftKey, rightKey⟩
  have leftOf := (mem_ofClass_iff.mp leftMember).2
  have rightOf := (mem_ofClass_iff.mp rightMember).2
  exact apart ⟨objectClass, key⟩ (StoreObject.entity?_eq_some_iff.mpr ⟨leftOf, leftKey⟩)
    (StoreObject.entity?_eq_some_iff.mpr ⟨rightOf, rightKey⟩)

theorem Distinct.addressed_apart (distinct : Distinct objects) :
    objects.Pairwise fun left right =>
      addressed objectClass object left = true →
      ¬addressed objectClass object right = true := by
  refine distinct.imp fun {left right} apart leftHit rightHit => ?_
  rcases addressed_iff.mp leftHit with ⟨key, identified, leftEntity⟩
  exact apart _ leftEntity ((addressed_of_identity? identified).mp rightHit)

/-- An object joins that is of a class and addresses nothing that is stored. -/
theorem Distinct.append (distinct : Distinct objects)
    (isOf : object.classPath = objectClass.path)
    (free : ∀ stored ∈ objects, ¬addressed objectClass object stored = true) :
    Distinct (objects ++ [object]) := by
  refine List.pairwise_append.mpr ⟨distinct, List.pairwise_singleton _ _, ?_⟩
  intro stored member other new entity storedEntity otherEntity
  rw [List.mem_singleton.mp new] at otherEntity
  rcases StoreObject.entity?_eq_some_iff.mp otherEntity with ⟨samePath, identified⟩
  have sameClass := ObjectClass.path_injective (isOf.symm.trans samePath)
  rw [sameClass] at free
  exact free stored member ((addressed_of_identity? identified).mpr storedEntity)

theorem Distinct.congr {others : List StoreObject} (distinct : Distinct objects)
    (same : List.Forall₂ (fun old new => new.entity? = old.entity?) objects others) :
    Distinct others := by
  induction same with
  | nil => exact distinct
  | cons first related induction =>
      rcases List.pairwise_cons.mp distinct with ⟨apart, rest⟩
      refine List.pairwise_cons.mpr ⟨fun new member entity found otherFound =>
        ?_, induction rest⟩
      rcases Results.exists_left related member with ⟨old, oldMember, otherSame⟩
      rw [first] at found
      rw [otherSame] at otherFound
      exact apart old oldMember entity found otherFound

theorem Distinct.map (distinct : Distinct objects) {change : StoreObject → StoreObject}
    (same : ∀ stored ∈ objects, (change stored).entity? = stored.entity?) :
    Distinct (objects.map change) := by
  refine List.pairwise_map.mpr (distinct.imp_of_mem ?_)
  intro left right leftMember rightMember apart
  rw [same left leftMember, same right rightMember]
  exact apart

end Contents

end SwitchQos
