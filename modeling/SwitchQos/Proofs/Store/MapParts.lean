import SwitchQos.Proofs.Store.Integrity

namespace SwitchQos

/-! The tables and entries of one map type are a store of their own within a store.
Operations on them neither look at the other objects nor change them, so what such
operations keep up is kept up in this part, whatever becomes of the rest. -/

def ObjectClass.OfMap (mapType : MapType) (objectClass : ObjectClass) : Prop :=
  objectClass = .mapTable mapType ∨ objectClass = .mapEntry mapType

namespace Contents

variable {contents after : Contents} {mapType : MapType} {objectClass : ObjectClass}
  {object stored result : StoreObject}

def isOfMap (mapType : MapType) (stored : StoreObject) : Bool :=
  stored.classPath = (ObjectClass.mapTable mapType).path ||
    stored.classPath = (ObjectClass.mapEntry mapType).path

def mapPart (contents : Contents) (mapType : MapType) : Contents :=
  { contents with objects := contents.objects.filter (isOfMap mapType) }

theorem isOfMap_iff : isOfMap mapType stored = true ↔
    ∃ objectClass : ObjectClass, objectClass.OfMap mapType ∧
      stored.classPath = objectClass.path := by
  simp [isOfMap, ObjectClass.OfMap]

theorem isOfMap_of_classPath (ofMap : objectClass.OfMap mapType)
    (isOf : stored.classPath = objectClass.path) : isOfMap mapType stored = true :=
  isOfMap_iff.mpr ⟨objectClass, ofMap, isOf⟩

theorem mem_mapPart_iff : stored ∈ (contents.mapPart mapType).objects ↔
    stored ∈ contents.objects ∧ isOfMap mapType stored = true := List.mem_filter

theorem ofClass_mapPart (ofMap : objectClass.OfMap mapType) :
    (contents.mapPart mapType).ofClass objectClass = contents.ofClass objectClass := by
  rw [ofClass, mapPart, List.filter_filter]
  refine List.filter_congr fun stored _ => ?_
  by_cases isOf : stored.classPath = objectClass.path
  · simp [isOf, isOfMap_of_classPath ofMap isOf]
  · simp [isOf]

theorem isOfMap_of_addressed (ofMap : objectClass.OfMap mapType)
    (hit : addressed objectClass object stored = true) :
    isOfMap mapType stored = true := by
  rcases addressed_iff.mp hit with ⟨key, -, found⟩
  exact isOfMap_of_classPath ofMap (StoreObject.entity?_eq_some_iff.mp found).1

theorem addressed_apart_of_mapPart (ofMap : objectClass.OfMap mapType)
    (distinct : Distinct (contents.mapPart mapType).objects) :
    contents.objects.Pairwise fun left right =>
      addressed objectClass object left = true →
      ¬addressed objectClass object right = true := by
  have apart := @Distinct.addressed_apart objectClass object _ distinct
  refine (List.pairwise_filter.mp apart).imp fun {left right} apart hit otherHit => ?_
  exact apart (isOfMap_of_addressed ofMap hit)
    (isOfMap_of_addressed ofMap otherHit) hit otherHit

theorem hasParent_mapPart (ofMap : objectClass.OfMap mapType) (path : String) :
    (contents.mapPart mapType).hasParent objectClass path object =
      contents.hasParent objectClass path object := by
  rcases ofMap with rfl | rfl
  · rfl
  · simp only [hasParent, ObjectClass.parent?, ofClass_mapPart (.inl rfl)]

/-! ## Operations -/

theorem create_mapPart (ofMap : objectClass.OfMap mapType)
    (isOf : object.classPath = objectClass.path)
    (done : contents.create objectClass object = .ok (result, after)) :
    (contents.mapPart mapType).create objectClass object =
      .ok (result, after.mapPart mapType) := by
  rcases create_eq_ok_iff.mp done with ⟨has, completed, parent, free, rfl⟩
  have isOwn :=
    isOfMap_of_classPath ofMap ((classPath_of_completed? completed).trans isOf)
  refine create_eq_ok_iff.mpr ⟨has, completed, (hasParent_mapPart ofMap _).trans parent,
    fun stored member => free stored (mem_mapPart_iff.mp member).1, ?_⟩
  simp only [mapPart, List.filter_append, List.filter_cons_of_pos isOwn, List.filter_nil]
  rfl

theorem set_mapPart (ofMap : objectClass.OfMap mapType)
    (distinct : Distinct (contents.mapPart mapType).objects)
    (done : contents.set objectClass object = .ok (result, after)) :
    (contents.mapPart mapType).set objectClass object =
      .ok (result, after.mapPart mapType) := by
  rcases (set_eq_ok_iff_of_apart (addressed_apart_of_mapPart ofMap distinct)).mp done with
    ⟨stored, member, hit, rfl, rfl⟩
  refine (set_eq_ok_iff distinct).mpr ⟨stored, ?_, hit, rfl, ?_⟩
  · exact mem_mapPart_iff.mpr ⟨member, isOfMap_of_addressed ofMap hit⟩
  · have sameClass : isOfMap mapType ∘ overwritten objectClass object = isOfMap mapType :=
      funext fun stored => by simp only [Function.comp, isOfMap, classPath_overwritten]
    simp only [mapPart, List.filter_map, sameClass]

theorem delete_mapPart (ofMap : objectClass.OfMap mapType)
    (distinct : Distinct (contents.mapPart mapType).objects)
    (done : contents.delete objectClass object = .ok (result, after)) :
    (contents.mapPart mapType).delete objectClass object =
      .ok (result, after.mapPart mapType) := by
  rcases (delete_eq_ok_iff_of_apart (addressed_apart_of_mapPart ofMap distinct)).mp
    done with ⟨member, hit, rfl⟩
  refine (delete_eq_ok_iff distinct).mpr ⟨?_, hit, ?_⟩
  · exact mem_mapPart_iff.mpr ⟨member, isOfMap_of_addressed ofMap hit⟩
  · simp only [mapPart, List.filter_filter, Bool.and_comm]

theorem addressed_stored_iff (ofMap : objectClass.OfMap mapType)
    (distinct : Distinct (contents.mapPart mapType).objects) {key : List StoreValue}
    (found : stored.entity? = some ⟨objectClass, key⟩)
    (member : stored ∈ contents.objects) {other : StoreObject}
    (isStored : other ∈ contents.objects) :
    addressed objectClass stored other = true ↔ other = stored := by
  have identified := (StoreObject.entity?_eq_some_iff.mp found).2
  rw [addressed_of_identity? identified]
  constructor
  · intro otherFound
    have hit (object : StoreObject)
        (isFound : object.entity? = some ⟨objectClass, key⟩) :=
      isOfMap_of_addressed ofMap ((addressed_of_identity? identified).mpr isFound)
    exact distinct.eq_of_entity? (mem_mapPart_iff.mpr ⟨isStored, hit other otherFound⟩)
      (mem_mapPart_iff.mpr ⟨member, hit stored found⟩) otherFound found
  · rintro rfl
    exact found

theorem delete_stored (ofMap : objectClass.OfMap mapType)
    (distinct : Distinct (contents.mapPart mapType).objects) {key : List StoreValue}
    (found : stored.entity? = some ⟨objectClass, key⟩)
    (member : stored ∈ contents.objects) :
    contents.delete objectClass stored =
      .ok (stored, ⟨contents.objects.filter fun other =>
      !goesWith objectClass stored other && other ≠ stored, contents.nextId⟩) := by
  have itself (other : StoreObject) (isStored : other ∈ contents.objects) :=
    addressed_stored_iff ofMap distinct found member isStored
  refine (delete_eq_ok_iff_of_apart (addressed_apart_of_mapPart ofMap distinct)).mpr
    ⟨member, (itself stored member).mpr rfl, ?_⟩
  refine congrArg (Contents.mk · contents.nextId)
    (List.filter_congr fun other isStored => ?_)
  have same : decide (other = stored) = addressed objectClass stored other :=
    Bool.eq_iff_iff.mpr (decide_eq_true_iff.trans (itself other isStored).symm)
  rw [decide_not, same]

theorem objects_mapPart_filter (keep : StoreObject → Bool) :
    (mapPart ⟨contents.objects.filter keep, contents.nextId⟩ mapType).objects =
      (contents.mapPart mapType).objects.filter keep := by
  simp only [mapPart, List.filter_filter, Bool.and_comm]

theorem performAll_deleteEntries {entries : List StoreObject}
    (distinct : Distinct (contents.mapPart mapType).objects) (apart : Distinct entries)
    (each : ∀ entry ∈ entries, entry ∈ contents.objects ∧
      ∃ key, entry.entity? = some ⟨.mapEntry mapType, key⟩) :
    ∃ answers, contents.performAll [] (entries.map (Operation.mk .delete)) =
      .ok (answers, ⟨contents.objects.filter fun other =>
        other ∉ entries, contents.nextId⟩) := by
  induction entries generalizing contents with
  | nil => exact ⟨[], by simp [performAll]⟩
  | cons entry rest induction =>
      rcases List.pairwise_cons.mp apart with ⟨apartFirst, apartRest⟩
      rcases each entry List.mem_cons_self with ⟨member, key, found⟩
      have deleted : contents.carryOut .delete (.mapEntry mapType) entry =
          .ok (entry, ⟨contents.objects.filter (· ≠ entry), contents.nextId⟩) :=
        delete_stored (.inr rfl) distinct found member
      have isOf := (StoreObject.entity?_eq_some_iff.mp found).1
      have first : contents.perform [] ⟨.delete, entry⟩ =
        .ok (entry.answer (.mapEntry mapType),
          ⟨contents.objects.filter (· ≠ entry), contents.nextId⟩) :=
        perform_eq_ok_iff.mpr ⟨List.forall_mem_nil _, _, entry, isOf, deleted, rfl⟩
      have others := @induction ⟨contents.objects.filter (· ≠ entry), contents.nextId⟩
        (by rw [objects_mapPart_filter]; exact distinct.filter _) apartRest
        fun other isLater => by
          rcases each other (List.mem_cons_of_mem _ isLater) with
            ⟨isStored, otherKey, otherFound⟩
          refine ⟨List.mem_filter.mpr ⟨isStored, decide_eq_true ?_⟩, otherKey, otherFound⟩
          rintro rfl
          exact apartFirst other isLater _ found found
      rcases others with ⟨answers, performed⟩
      have left : (contents.objects.filter (· ≠ entry)).filter (· ∉ rest) =
          contents.objects.filter (· ∉ entry :: rest) := by
        rw [List.filter_filter]
        refine List.filter_congr fun other _ => ?_
        simp [not_or, Bool.and_comm]
      rw [left] at performed
      exact ⟨_, performAll_cons_eq_ok_iff.mpr ⟨_, answers, _, first, performed, rfl⟩⟩

end Contents

end SwitchQos
