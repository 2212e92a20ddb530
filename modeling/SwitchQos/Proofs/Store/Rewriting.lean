import SwitchQos.Proofs.Store.Overwriting

namespace SwitchQos

/-! Objects that are set one after the other, whatever they are. Whether the store takes
an object depends on its rules and on the entities it has, and setting changes neither.
So it is clear from the start which objects will be taken, and to set the same objects
again changes nothing. -/

namespace StoreObject

variable {object stored other : StoreObject} {given : List StoreObject}

theorem sameEntity_iff {left right : StoreObject} :
    left.SameEntity right ↔ left.entity?.isSome ∧ right.entity? = left.entity? := by
  rw [SameEntity, Option.isSome_iff_exists]
  constructor
  · rintro ⟨entity, leftFound, rightFound⟩
    exact ⟨⟨entity, leftFound⟩, rightFound.trans leftFound.symm⟩
  · rintro ⟨⟨entity, leftFound⟩, same⟩
    exact ⟨entity, leftFound, same.trans leftFound⟩

instance {left right : StoreObject} : Decidable (left.SameEntity right) :=
  decidable_of_iff _ sameEntity_iff.symm

theorem sameEntity_congr {left old new : StoreObject} (same : new.entity? = old.entity?) :
    left.SameEntity new ↔ left.SameEntity old := by
  rw [sameEntity_iff, sameEntity_iff, same]

/-! ## One stored object -/

/-- What becomes of a stored object when `object` is set. -/
def updatedBy (object stored : StoreObject) : StoreObject :=
  if object.SameEntity stored then stored.mergeFrom object else stored

theorem overwritten_eq_updatedBy {objectClass : ObjectClass}
    (isOf : object.classPath = objectClass.path) :
    Contents.overwritten objectClass object = object.updatedBy := by
  funext stored
  simp only [Contents.overwritten, updatedBy, Contents.addressed_iff_sameEntity isOf]

@[simp] theorem classPath_updatedBy :
    (object.updatedBy stored).classPath = stored.classPath := by
  rw [updatedBy]
  split <;> rfl

@[simp] theorem isPlain_updatedBy : (object.updatedBy stored).IsPlain ↔
    stored.IsPlain := by
  rw [updatedBy]
  split <;> rfl

theorem entity?_updatedBy (plain : stored.IsPlain) :
    (object.updatedBy stored).entity? = stored.entity? := by
  by_cases same : object.SameEntity stored
  · rcases same with ⟨⟨objectClass, key⟩, found, -⟩
    have isOf := (entity?_eq_some_iff.mp found).1
    rw [← overwritten_eq_updatedBy isOf]
    exact Contents.entity?_overwritten plain
  · rw [updatedBy, if_neg same]

theorem get?_updatedBy (path : String) :
    (object.updatedBy stored).get? path =
      if object.SameEntity stored then (object.lookup path).or (stored.get? path)
      else stored.get? path := by
  rw [updatedBy]
  split
  · rw [get?_mergeFrom]
  · rfl

def rewritten (given : List StoreObject) (stored : StoreObject) : StoreObject :=
  given.foldl (fun stored object => object.updatedBy stored) stored

theorem rewritten_append (earlier later : List StoreObject) :
    rewritten (earlier ++ later) stored = rewritten later (rewritten earlier stored) :=
  List.foldl_append

def rowsFor (given : List StoreObject) (stored : StoreObject) :
    List (String × StoreValue) :=
  given.flatMap fun object =>
    if object.SameEntity stored then object.flattened.rows.reverse else []

theorem rowsFor_congr (same : other.entity? = stored.entity?) :
    rowsFor given other = rowsFor given stored := by
  simp only [rowsFor, sameEntity_congr same]

theorem attrs_updatedBy :
    (object.updatedBy stored).attrs = stored.attrs.writes (rowsFor [object] stored) := by
  simp only [updatedBy, rowsFor, List.flatMap_singleton]
  split
  · exact Directory.insertAll_eq_writes _ _
  · rfl

theorem entity?_rewritten (plain : stored.IsPlain) :
    (rewritten given stored).entity? = stored.entity? := by
  induction given generalizing stored with
  | nil => rfl
  | cons object rest induction =>
      exact (induction (isPlain_updatedBy.mpr plain)).trans (entity?_updatedBy plain)

theorem rewritten_eq (plain : stored.IsPlain) :
    rewritten given stored =
      { stored with attrs := stored.attrs.writes (rowsFor given stored) } := by
  induction given generalizing stored with
  | nil => cases stored; rfl
  | cons object rest induction =>
      have plainNext : (object.updatedBy stored).IsPlain := isPlain_updatedBy.mpr plain
      have rows : rowsFor (object :: rest) stored =
          rowsFor [object] stored ++ rowsFor rest (object.updatedBy stored) := by
        rw [rowsFor_congr (entity?_updatedBy plain)]
        simp [rowsFor]
      rw [rows, Directory.writes_append, ← attrs_updatedBy]
      refine (induction plainNext).trans ?_
      rw [updatedBy]
      split <;> rfl

theorem rewritten_rewritten (plain : stored.IsPlain) :
    rewritten given (rewritten given stored) = rewritten given stored := by
  have plainAfter : (rewritten given stored).IsPlain := by
    rw [rewritten_eq plain]
    exact plain
  have sameRows : rowsFor given (rewritten given stored) = rowsFor given stored :=
    rowsFor_congr (entity?_rewritten plain)
  rw [rewritten_eq plainAfter, sameRows, rewritten_eq plain]
  simp only [Directory.writes_writes _ fun row => List.mem_map_of_mem]

end StoreObject

/-! ## All stored objects -/

namespace Contents

open StoreObject

variable {contents : Contents} {object : StoreObject} {given : List StoreObject}

def rewritten (given : List StoreObject) (contents : Contents) : Contents :=
  { contents with objects := contents.objects.map (StoreObject.rewritten given) }

theorem rewritten_rewritten (plain : ∀ stored ∈ contents.objects, stored.IsPlain) :
    (contents.rewritten given).rewritten given = contents.rewritten given := by
  have same : (contents.objects.map (StoreObject.rewritten given)).map
      (StoreObject.rewritten given) =
      contents.objects.map (StoreObject.rewritten given) := by
    rw [List.map_map]
    exact List.map_congr_left fun stored member =>
      StoreObject.rewritten_rewritten (plain stored member)
  exact congrArg (fun objects => (⟨objects, contents.nextId⟩ : Contents)) same

def refusal? (contents : Contents) (rules : List FailureRule) (object : StoreObject) :
    Option Rejection :=
  if rules.any fun rule => rule.applies ⟨.set, object⟩ then
    some (.refused .set object.classPath)
  else if contents.objects.any fun stored => object.SameEntity stored then none
  else some (.noSuch object.classPath)

variable {rules : List FailureRule} {objectClass : ObjectClass}

theorem perform_of_refusal {reason : Rejection}
    (isOf : object.classPath = objectClass.path)
    (refused : contents.refusal? rules object = some reason) :
    contents.perform rules ⟨.set, object⟩ = .error reason := by
  rw [refusal?] at refused
  rw [perform]
  split at refused
  · rename_i ruled
    rw [if_pos ruled, ← Option.some.inj refused]
  · rename_i unruled
    rw [if_neg unruled]
    split at refused
    · cases refused
    · rename_i missed
      have noneFound : contents.objects.find? (addressed objectClass object) = none := by
        rw [List.find?_eq_none]
        intro stored member hit
        have same := (addressed_iff_sameEntity isOf).mp hit
        exact missed (List.any_eq_true.mpr ⟨stored, member, decide_eq_true same⟩)
      have failed : contents.set objectClass object =
          .error (.noSuch objectClass.path) := by
        rw [set, noneFound]
      have found : (ObjectClass.ofPath object.classPath).mapError Rejection.codec =
          .ok objectClass := by
        rw [isOf, ObjectClass.ofPath_path]
        rfl
      rw [found, Results.ok_bind, ← Option.some.inj refused, isOf, failed]
      rfl

theorem perform_of_accepted (distinct : Distinct contents.objects)
    (isOf : object.classPath = objectClass.path)
    (accepted : contents.refusal? rules object = none) :
    ∃ answer, contents.perform rules ⟨.set, object⟩ =
      .ok (answer, contents.rewritten [object]) := by
  rw [refusal?] at accepted
  split at accepted
  · cases accepted
  · rename_i unruled
    split at accepted
    · rename_i located
      rcases List.any_eq_true.mp located with ⟨stored, member, same⟩
      have hit := (addressed_iff_sameEntity isOf).mpr (of_decide_eq_true same)
      have carried := (set_eq_ok_iff distinct).mpr ⟨stored, member, hit, rfl, rfl⟩
      rw [overwritten_eq_updatedBy isOf] at carried
      refine ⟨_, perform_eq_ok_iff.mpr ⟨?_, objectClass, _, isOf, carried, rfl⟩⟩
      simpa using unruled
    · cases accepted

theorem refusal?_congr {other : Contents}
    (same : List.Forall₂ (fun old new => new.entity? = old.entity?) contents.objects
      other.objects) :
    other.refusal? rules object = contents.refusal? rules object := by
  have sameHits : other.objects.any (fun stored => object.SameEntity stored) =
      contents.objects.any (fun stored => object.SameEntity stored) := by
    generalize contents.objects = olds at same
    generalize other.objects = news at same
    induction same with
    | nil => rfl
    | cons first _ induction =>
        simp only [List.any_cons, induction, sameEntity_congr first]
  simp only [refusal?, sameHits]

theorem refusal?_append {extra : List FailureRule}
    (silent : ∀ rule ∈ extra, ¬rule.applies ⟨.set, object⟩ = true) :
    contents.refusal? (rules ++ extra) object = contents.refusal? rules object := by
  have noneApplies : extra.any (fun rule => rule.applies ⟨.set, object⟩) = false := by
    simpa using silent
  simp only [refusal?, List.any_append, noneApplies, Bool.or_false]

theorem rewritten_nil : contents.rewritten [] = contents := by
  have same : StoreObject.rewritten [] = id := rfl
  simp only [rewritten, same, List.map_id]

theorem rewritten_append (earlier later : List StoreObject) :
    contents.rewritten (earlier ++ later) =
      (contents.rewritten earlier).rewritten later := by
  have same : StoreObject.rewritten (earlier ++ later) =
      StoreObject.rewritten later ∘ StoreObject.rewritten earlier :=
    funext fun _ => StoreObject.rewritten_append earlier later
  simp only [rewritten, List.map_map, same]

end Contents

/-! ## In a store -/

namespace Memory

variable {memory : Memory} {object : StoreObject} {objectClass : ObjectClass}

theorem transact_of_refusal {reason : Rejection}
    (isOf : object.classPath = objectClass.path)
    (refused : memory.contents.refusal? memory.rules object = some reason) :
    memory.transact [⟨.set, object⟩] = (.error (.rejected reason), memory) := by
  apply transact_of_error
  rw [Contents.performAll, Contents.perform_of_refusal isOf refused, Results.error_bind]

theorem transact_of_accepted (distinct : Contents.Distinct memory.contents.objects)
    (isOf : object.classPath = objectClass.path)
    (accepted : memory.contents.refusal? memory.rules object = none) :
    ∃ answers after, memory.transact [⟨.set, object⟩] = (.ok answers, after) ∧
      after.rules = memory.rules ∧ after.unavailable = memory.unavailable ∧
      after.contents = memory.contents.rewritten [object] := by
  rcases Contents.perform_of_accepted distinct isOf accepted with ⟨answer, performed⟩
  have performedAll :=
    Contents.performAll_singleton_eq_ok_iff.mpr ⟨answer, performed, rfl⟩
  exact ⟨_, _, transact_of_ok performedAll, rfl, rfl, rfl⟩

end Memory

end SwitchQos
