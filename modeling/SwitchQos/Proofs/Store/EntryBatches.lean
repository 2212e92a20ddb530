import SwitchQos.Proofs.Store.Operations

namespace SwitchQos

/-! A batch that creates the entries of a table goes through if no entry addresses
one that is stored and no two entries of the batch are the same. -/

namespace Contents

variable {contents after : Contents} {mapType : MapType} {entry : StoreObject}
  {entries answers : List StoreObject}

theorem create_entry_eq_ok_iff {created : StoreObject} :
    contents.create (.mapEntry mapType) entry = .ok (created, after) ↔
      created = entry ∧
        contents.hasParent (.mapEntry mapType)
          ((ObjectClass.mapEntry mapType).pathOf "id") entry = true ∧
        (∀ stored ∈ contents.objects,
          ¬addressed (.mapEntry mapType) entry stored = true) ∧
        after = ⟨contents.objects ++ [entry], contents.nextId⟩ := by
  have has : (ObjectClass.mapEntry mapType).Has "id" := by
    rw [ObjectClass.Has]
    rfl
  have complete : contents.completed? (.mapEntry mapType) entry = some entry := rfl
  have sameNext : contents.idAfter (.mapEntry mapType) entry = contents.nextId := rfl
  rw [create_eq_ok_iff, complete, sameNext, Option.some.injEq]
  constructor
  · rintro ⟨-, rfl, parent, free, rfl⟩
    exact ⟨rfl, parent, free, rfl⟩
  · rintro ⟨rfl, parent, free, rfl⟩
    exact ⟨has, rfl, parent, free, rfl⟩

theorem hasParent_append {objectClass : ObjectClass} {path : String}
    {object : StoreObject} (parent : contents.hasParent objectClass path object = true)
    (others : List StoreObject) (nextId : Nat) :
    hasParent ⟨contents.objects ++ others, nextId⟩ objectClass path object = true := by
  rw [hasParent] at parent ⊢
  split at parent
  · rfl
  · simp only [Bool.and_eq_true] at parent ⊢
    rcases parent with ⟨hasId, known⟩
    refine ⟨hasId, ?_⟩
    rcases List.any_eq_true.mp known with ⟨table, member, same⟩
    refine List.any_eq_true.mpr ⟨table, ?_, same⟩
    rw [ofClass, List.filter_append]
    exact List.mem_append_left _ member

theorem perform_createEntry_iff {answer : StoreObject}
    (isOf : entry.classPath = (ObjectClass.mapEntry mapType).path)
    (parent : contents.hasParent (.mapEntry mapType)
      ((ObjectClass.mapEntry mapType).pathOf "id") entry = true) :
    contents.perform [] ⟨.create, entry⟩ = .ok (answer, after) ↔
      (∀ stored ∈ contents.objects, ¬addressed (.mapEntry mapType) entry stored = true) ∧
        answer = entry.answer (.mapEntry mapType) ∧
        after = ⟨contents.objects ++ [entry], contents.nextId⟩ := by
  simp only [perform_eq_ok_iff, isOf, ObjectClass.path_inj, carryOut, List.not_mem_nil,
    false_imp_iff, implies_true, true_and]
  constructor
  · rintro ⟨_, _, rfl, created, rfl⟩
    rcases create_entry_eq_ok_iff.mp created with ⟨rfl, -, free, rfl⟩
    exact ⟨free, rfl, rfl⟩
  · rintro ⟨free, rfl, rfl⟩
    exact ⟨_, entry, rfl, create_entry_eq_ok_iff.mpr ⟨rfl, parent, free, rfl⟩, rfl⟩

theorem performAll_createEntries_iff
    (samePath : ∀ entry ∈ entries, entry.classPath = (ObjectClass.mapEntry mapType).path)
    (parents : ∀ entry ∈ entries, contents.hasParent (.mapEntry mapType)
      ((ObjectClass.mapEntry mapType).pathOf "id") entry = true) :
    contents.performAll [] (entries.map (Operation.mk .create)) = .ok (answers, after) ↔
      (∀ entry ∈ entries, ∀ stored ∈ contents.objects,
        ¬addressed (.mapEntry mapType) entry stored = true) ∧
      entries.Pairwise (fun earlier later =>
        ¬addressed (.mapEntry mapType) later earlier = true) ∧
      answers = entries.map (StoreObject.answer (.mapEntry mapType)) ∧
      after = ⟨contents.objects ++ entries, contents.nextId⟩ := by
  induction entries generalizing contents answers with
  | nil =>
      constructor
      · intro same
        cases same
        simp
      · rintro ⟨-, -, rfl, rfl⟩
        simp [performAll]
  | cons entry rest induction =>
      have restPath := fun other member => samePath other (List.mem_cons_of_mem _ member)
      have restParents := fun other member =>
        hasParent_append (parents other (List.mem_cons_of_mem _ member))
          [entry] contents.nextId
      have first :=
        fun answer next => @perform_createEntry_iff contents next mapType entry answer
        (samePath entry List.mem_cons_self) (parents entry List.mem_cons_self)
      rw [List.map_cons, performAll_cons_eq_ok_iff]
      simp only [first, List.forall_mem_cons, List.pairwise_cons, List.map_cons]
      constructor
      · rintro ⟨answer, others, next, ⟨free, rfl, rfl⟩, later, rfl⟩
        rcases (induction restPath restParents).mp later with ⟨restFree, apart, rfl, rfl⟩
        refine ⟨⟨free, fun other member stored old => ?_⟩,
          ⟨fun other member => ?_, apart⟩, rfl, by simp⟩
        · exact restFree other member stored (List.mem_append_left _ old)
        · exact restFree other member entry (List.mem_append_right _ List.mem_cons_self)
      · rintro ⟨⟨free, restFree⟩, ⟨firstApart, apart⟩, rfl, rfl⟩
        refine ⟨_, _, _, ⟨free, rfl, rfl⟩, (induction restPath restParents).mpr
          ⟨fun other member stored old => ?_, apart, rfl, by simp⟩, rfl⟩
        rcases List.mem_append.mp old with before | new
        · exact restFree other member stored before
        · rw [List.mem_singleton.mp new]
          exact firstApart other member

theorem contents_of_createEntries {rules : List FailureRule}
    (samePath : ∀ entry ∈ entries, entry.classPath = (ObjectClass.mapEntry mapType).path)
    (performed : contents.performAll rules (entries.map (Operation.mk .create)) =
      .ok (answers, after)) : after = ⟨contents.objects ++ entries, contents.nextId⟩ := by
  induction entries generalizing contents answers with
  | nil =>
      cases performed
      simp
  | cons entry rest induction =>
      rcases performAll_cons_eq_ok_iff.mp performed with
        ⟨_, _, middle, first, others, rfl⟩
      rcases perform_eq_ok_iff.mp first with ⟨-, objectClass, created, isOf, carried, rfl⟩
      cases ObjectClass.path_injective
        ((samePath entry List.mem_cons_self).symm.trans isOf)
      rcases create_entry_eq_ok_iff.mp carried with ⟨rfl, -, -, rfl⟩
      have rest :=
        induction (fun other member => samePath other (List.mem_cons_of_mem _ member))
        others
      simpa using rest

end Contents

end SwitchQos
