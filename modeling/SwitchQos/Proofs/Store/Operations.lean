import SwitchQos.Proofs.Object.Assembly
import SwitchQos.Proofs.Results
import SwitchQos.Proofs.Store.Entities
import SwitchQos.Store.Memory

namespace SwitchQos

/-! When an operation on the stored objects succeeds, and what it leaves behind.
As long as no entity is stored twice, the first object addressed is the only one,
so changing or removing the first is changing or removing all. -/

namespace ObjectClass

theorem spec?_id_of_allocatesId {objectClass : ObjectClass}
    (allocates : objectClass.allocatesId = true) :
    objectClass.spec? "id" = some (.scalar .uint64) := by
  cases objectClass with
  | schedulerGroup | schedulerProfile | mapTable _ => rfl
  | _ => cases allocates

theorem keyAttrs_of_allocatesId {objectClass : ObjectClass}
    (allocates : objectClass.allocatesId = true) : objectClass.keyAttrs = ["id"] := by
  cases objectClass with
  | schedulerGroup | schedulerProfile | mapTable _ => rfl
  | _ => cases allocates

theorem id_mem_keyAttrs_of_allocatesId {objectClass : ObjectClass}
    (allocates : objectClass.allocatesId = true) : "id" ∈ objectClass.keyAttrs := by
  rw [keyAttrs_of_allocatesId allocates]
  exact List.mem_singleton_self _

theorem parent?_of_allocatesId {objectClass : ObjectClass}
    (allocates : objectClass.allocatesId = true) : objectClass.parent? = none := by
  cases objectClass with
  | mapEntry mapType => cases allocates
  | _ => rfl

end ObjectClass

namespace Contents

variable {contents after : Contents} {objectClass : ObjectClass} {object : StoreObject}

/-! ## The only object that is addressed -/

section Lists

variable {condition : StoreObject → Bool} {objects : List StoreObject}
  {stored : StoreObject}

theorem find?_eq_some_of_apart
    (apart : objects.Pairwise fun left right =>
      condition left = true → ¬condition right = true)
    (member : stored ∈ objects) (hit : condition stored = true) :
    objects.find? condition = some stored := by
  induction apart with
  | nil => cases member
  | cons others _ induction =>
      rcases List.mem_cons.mp member with rfl | later
      · simp [hit]
      · rw [List.find?_cons_of_neg fun first => others stored later first hit]
        exact induction later

theorem replaceFirst_eq_self {replacement : StoreObject}
    (missed : ∀ stored ∈ objects, ¬condition stored = true) :
    replaceFirst condition replacement objects = objects := by
  induction objects with
  | nil => rfl
  | cons first rest induction =>
      rw [replaceFirst, if_neg (missed first List.mem_cons_self),
        induction fun stored member => missed stored (List.mem_cons_of_mem _ member)]

theorem replaceFirst_eq_map {replacement : StoreObject}
    (apart : objects.Pairwise fun left right =>
      condition left = true → ¬condition right = true) :
    replaceFirst condition replacement objects =
      objects.map fun stored => if condition stored then replacement else stored := by
  induction apart with
  | nil => rfl
  | @cons first rest others _ induction =>
      rw [replaceFirst, List.map_cons]
      by_cases hit : condition first = true
      · have missed : ∀ stored ∈ rest, ¬condition stored = true :=
          fun stored member => others stored member hit
        rw [if_pos hit, if_pos hit, ← induction, replaceFirst_eq_self missed]
      · rw [if_neg hit, if_neg hit, induction]

theorem eraseP_eq_filter
    (apart : objects.Pairwise fun left right =>
      condition left = true → ¬condition right = true) :
    objects.eraseP condition = objects.filter fun stored => !condition stored := by
  induction apart with
  | nil => rfl
  | @cons first rest others _ induction =>
      by_cases hit : condition first = true
      · have kept : rest.filter (fun stored => !condition stored) = rest :=
          List.filter_eq_self.mpr
            fun stored member => by simpa using others stored member hit
        simp [hit, kept]
      · simp [hit, induction]

end Lists

/-! ## Creating -/

def needsId (objectClass : ObjectClass) (object : StoreObject) : Bool :=
  objectClass.allocatesId && !object.contains (objectClass.pathOf "id")

/-- A new object as it is stored, with the next id where it needs one; the store
has run out of ids when there is no such object. -/
def completed? (contents : Contents) (objectClass : ObjectClass) (object : StoreObject) :
    Option StoreObject :=
  if needsId objectClass object then
    if contents.nextId < countOfBits 64 then
      some (object.insert (objectClass.pathOf "id") (Storage.uint64.word contents.nextId))
    else none
  else some object

def idAfter (contents : Contents) (objectClass : ObjectClass)
    (object : StoreObject) : Nat :=
  if needsId objectClass object then contents.nextId + 1 else contents.nextId

theorem isPlain_of_completed? {created : StoreObject} (plain : object.IsPlain)
    (completed : contents.completed? objectClass object = some created) :
    created.IsPlain := by
  rw [completed?] at completed
  split at completed
  · split at completed
    · cases completed
      exact plain
    · cases completed
  · cases completed
    exact plain

theorem classPath_of_completed? {created : StoreObject}
    (completed : contents.completed? objectClass object = some created) :
    created.classPath = object.classPath := by
  rw [completed?] at completed
  split at completed
  · split at completed
    · cases completed
      rfl
    · cases completed
  · cases completed
    rfl

theorem get?_of_completed? {created : StoreObject} {path : String} {value : StoreValue}
    (completed : contents.completed? objectClass object = some created)
    (kept : object.get? path = some value) : created.get? path = some value := by
  rw [completed?] at completed
  split at completed
  · rename_i needed
    split at completed
    · cases completed
      have unnumbered : objectClass.pathOf "id" ≠ path := by
        rintro rfl
        rw [needsId, StoreObject.contains, Directory.contains,
          ← StoreObject.get?, kept] at needed
        simp at needed
      rwa [StoreObject.get?_insert_of_ne _ unnumbered]
    · cases completed
  · cases completed
    exact kept

theorem needsId_of_unnumbered (allocates : objectClass.allocatesId = true)
    (unnumbered : object.get? (objectClass.pathOf "id") = none) :
    needsId objectClass object = true := by
  have absent : object.contains (objectClass.pathOf "id") = false := by
    rw [StoreObject.get?] at unnumbered
    rw [StoreObject.contains, Directory.contains, unnumbered]
    rfl
  rw [needsId, allocates, absent]
  rfl

theorem id_of_completed? {created : StoreObject}
    (allocates : objectClass.allocatesId = true)
    (completed : contents.completed? objectClass object = some created) :
    (created.get? (objectClass.pathOf "id")).isSome := by
  rw [completed?] at completed
  split at completed
  · split at completed
    · cases completed
      rw [StoreObject.get?_insert_self]
      rfl
    · cases completed
  · rename_i given
    cases completed
    have has : object.contains (objectClass.pathOf "id") = true := by
      simpa [needsId, allocates] using given
    exact has

theorem withId_eq_ok_iff {created : StoreObject} {next : Contents} :
    contents.withId objectClass (objectClass.pathOf "id") object = .ok (created, next) ↔
      contents.completed? objectClass object = some created ∧
        next = { contents with nextId := contents.idAfter objectClass object } := by
  rw [withId, completed?, idAfter, needsId]
  cases allocates : objectClass.allocatesId &&
      !object.contains (objectClass.pathOf "id") with
  | false =>
      simp only [Bool.false_eq_true, if_false, Except.ok.injEq, Prod.mk.injEq,
        Option.some.injEq]
      exact and_congr_right fun _ => eq_comm
  | true =>
      have found :=
        ObjectClass.spec?_id_of_allocatesId (Bool.and_eq_true_iff.mp allocates).1
      have natural : (AttrSpec.scalar .uint64).IsNatural := by decide
      simp only [if_true, Results.bind_eq_ok_iff, ObjectClass.set_eq_ok_iff,
        ObjectClass.encode_eq_ok_iff found, AttrSpec.encode_uint_eq_ok_iff natural,
        Except.ok.injEq, Prod.mk.injEq]
      have room : (AttrSpec.scalar .uint64).storage.modulus = countOfBits 64 := rfl
      rw [room]
      constructor
      · rintro ⟨written, ⟨stored, ⟨fits, rfl⟩, rfl⟩, rfl, rfl⟩
        exact ⟨if_pos fits, rfl⟩
      · rintro ⟨completed, rfl⟩
        split at completed
        · rename_i fits
          cases completed
          exact ⟨_, ⟨_, ⟨fits, rfl⟩, rfl⟩, rfl, rfl⟩
        · cases completed

theorem create_eq_ok_iff {created : StoreObject} :
    contents.create objectClass object = .ok (created, after) ↔
      objectClass.Has "id" ∧
        contents.completed? objectClass object = some created ∧
        contents.hasParent objectClass (objectClass.pathOf "id") created = true ∧
        (∀ stored ∈ contents.objects, ¬addressed objectClass created stored = true) ∧
        after = ⟨contents.objects ++ [created], contents.idAfter objectClass object⟩ := by
  -- Handing out an id does not touch the objects, so parents are as before.
  have sameParent : ∀ nextId path given,
    hasParent { contents with nextId } objectClass path given =
      contents.hasParent objectClass path given := fun _ _ _ => rfl
  simp only [create, Results.bind_eq_ok_iff, Results.mapError_eq_ok_iff,
    ObjectClass.attrPath_eq_ok_iff, Prod.exists, Results.refusal_eq_ok_iff,
    Except.ok.injEq,
    Prod.mk.injEq, Bool.not_eq_true', Bool.not_eq_false, List.any_eq_true,
    not_exists, not_and, add]
  constructor
  · rintro ⟨_, ⟨has, rfl⟩, given, next, allocated, parent, free, rfl, rfl⟩
    rcases withId_eq_ok_iff.mp allocated with ⟨completed, rfl⟩
    exact ⟨has, completed, parent, free, rfl⟩
  · rintro ⟨has, completed, parent, free, rfl⟩
    have allocated := withId_eq_ok_iff.mpr ⟨completed, rfl⟩
    exact ⟨_, ⟨has, rfl⟩, created, _, allocated,
      (sameParent _ _ _).trans parent, free, rfl, rfl⟩

/-! ## Setting -/

def overwritten (objectClass : ObjectClass) (object stored : StoreObject) : StoreObject :=
  if addressed objectClass object stored then stored.mergeFrom object else stored

theorem set_eq_ok_iff_of_apart
    (apart : contents.objects.Pairwise fun left right =>
      addressed objectClass object left = true →
      ¬addressed objectClass object right = true)
    {merged : StoreObject} :
    contents.set objectClass object = .ok (merged, after) ↔
      ∃ stored ∈ contents.objects, addressed objectClass object stored = true ∧
        merged = stored.mergeFrom object ∧
        after = ⟨contents.objects.map (overwritten objectClass object),
          contents.nextId⟩ := by
  rw [set]
  cases located : contents.objects.find? (addressed objectClass object) with
  | none =>
      simp only [reduceCtorEq, false_iff]
      rintro ⟨stored, member, hit, -⟩
      exact List.find?_eq_none.mp located stored member hit
  | some stored =>
      have member := List.mem_of_find?_eq_some located
      have hit := List.find?_some located
      have replaced : replaceFirst (addressed objectClass object)
        (stored.mergeFrom object)
          contents.objects = contents.objects.map (overwritten objectClass object) := by
        rw [replaceFirst_eq_map apart]
        apply List.map_congr_left
        intro other otherMember
        rw [overwritten]
        split
        · rename_i otherHit
          have same := find?_eq_some_of_apart apart otherMember otherHit
          rw [located] at same
          rw [Option.some.inj same]
        · rfl
      simp only [replaced, Except.ok.injEq, Prod.mk.injEq]
      constructor
      · rintro ⟨rfl, rfl⟩
        exact ⟨stored, member, hit, rfl, rfl⟩
      · rintro ⟨other, otherMember, otherHit, rfl, rfl⟩
        have same := find?_eq_some_of_apart apart otherMember otherHit
        rw [located] at same
        exact ⟨by rw [Option.some.inj same], rfl⟩

theorem set_eq_ok_iff (distinct : Distinct contents.objects) {merged : StoreObject} :
    contents.set objectClass object = .ok (merged, after) ↔
      ∃ stored ∈ contents.objects, addressed objectClass object stored = true ∧
        merged = stored.mergeFrom object ∧
        after = ⟨contents.objects.map (overwritten objectClass object),
          contents.nextId⟩ :=
  set_eq_ok_iff_of_apart distinct.addressed_apart

/-! ## Deleting -/

def goesWith (objectClass : ObjectClass) (removed stored : StoreObject) : Bool :=
  match objectClass with
  | .mapTable mapType => belongsTo mapType removed stored
  | _ => false

private theorem delete_of_find? {stored : StoreObject}
    (located : contents.objects.find? (addressed objectClass object) = some stored) :
    contents.delete objectClass object =
      .ok (stored, ⟨(contents.objects.eraseP (addressed objectClass object)).filter
        fun other => !goesWith objectClass stored other, contents.nextId⟩) := by
  cases objectClass <;> simp [delete, located, goesWith]

theorem delete_eq_ok_iff_of_apart
    (apart : contents.objects.Pairwise fun left right =>
      addressed objectClass object left = true →
      ¬addressed objectClass object right = true)
    {removed : StoreObject} :
    contents.delete objectClass object = .ok (removed, after) ↔
      removed ∈ contents.objects ∧ addressed objectClass object removed = true ∧
        after = ⟨contents.objects.filter fun stored =>
          !goesWith objectClass removed stored && !addressed objectClass object stored,
          contents.nextId⟩ := by
  cases located : contents.objects.find? (addressed objectClass object) with
  | none =>
      simp only [delete, located, reduceCtorEq, false_iff]
      rintro ⟨member, hit, -⟩
      exact List.find?_eq_none.mp located removed member hit
  | some stored =>
      have member := List.mem_of_find?_eq_some located
      have hit := List.find?_some located
      rw [delete_of_find? located, eraseP_eq_filter apart, List.filter_filter]
      simp only [Except.ok.injEq, Prod.mk.injEq]
      constructor
      · rintro ⟨rfl, rfl⟩
        exact ⟨member, hit, rfl⟩
      · rintro ⟨otherMember, otherHit, rfl⟩
        have same := find?_eq_some_of_apart apart otherMember otherHit
        rw [located] at same
        cases same
        exact ⟨rfl, rfl⟩

theorem delete_eq_ok_iff (distinct : Distinct contents.objects) {removed : StoreObject} :
    contents.delete objectClass object = .ok (removed, after) ↔
      removed ∈ contents.objects ∧ addressed objectClass object removed = true ∧
        after = ⟨contents.objects.filter fun stored =>
          !goesWith objectClass removed stored && !addressed objectClass object stored,
          contents.nextId⟩ :=
  delete_eq_ok_iff_of_apart distinct.addressed_apart

/-! ## Single operations and batches -/

/-- Carry out one operation on objects of the class; failure rules are left aside. -/
def carryOut (contents : Contents) (verb : Verb) (objectClass : ObjectClass)
    (object : StoreObject) : Except Rejection (StoreObject × Contents) :=
  match verb with
  | .create => contents.create objectClass object
  | .set => contents.set objectClass object
  | .delete => contents.delete objectClass object

theorem perform_eq_ok_iff {rules : List FailureRule} {operation : Operation}
    {answer : StoreObject} :
    contents.perform rules operation = .ok (answer, after) ↔
      (∀ rule ∈ rules, ¬rule.applies operation = true) ∧
        ∃ objectClass result, operation.object.classPath = objectClass.path ∧
          contents.carryOut operation.verb objectClass operation.object =
            .ok (result, after) ∧
          answer = result.answer objectClass := by
  rcases operation with ⟨verb, object⟩
  rw [perform, Results.refusal_eq_ok_iff, List.any_eq_true, not_exists]
  apply and_congr (by simp only [not_and])
  cases verb with
  | create | set | delete =>
      simp only [Results.bind_eq_ok_iff, Results.mapError_eq_ok_iff,
        ObjectClass.ofPath_eq_ok_iff, carryOut]
      constructor
      · rintro ⟨objectClass, samePath, ⟨result, next⟩, performed, same⟩
        cases same
        exact ⟨objectClass, result, samePath.symm, performed, rfl⟩
      · rintro ⟨objectClass, result, samePath, performed, rfl⟩
        exact ⟨objectClass, samePath.symm, (result, after), performed, rfl⟩

theorem performAll_cons_eq_ok_iff {rules : List FailureRule} {operation : Operation}
    {rest : List Operation} {answers : List StoreObject} :
    contents.performAll rules (operation :: rest) = .ok (answers, after) ↔
      ∃ answer others next, contents.perform rules operation = .ok (answer, next) ∧
        next.performAll rules rest = .ok (others, after) ∧
        answers = answer :: others := by
  rw [performAll]
  simp only [Results.bind_eq_ok_iff]
  constructor
  · rintro ⟨⟨answer, next⟩, first, ⟨others, last⟩, later, same⟩
    cases same
    exact ⟨answer, others, next, first, later, rfl⟩
  · rintro ⟨answer, others, next, first, later, rfl⟩
    exact ⟨(answer, next), first, (others, after), later, rfl⟩

/-- Whenever the operation is carried out, what held of the stored objects still holds. -/
def Keeps (Kept : Contents → Prop) (operation : Operation) : Prop :=
  ∀ {before after : Contents} {objectClass : ObjectClass} {result : StoreObject},
    operation.object.classPath = objectClass.path → Kept before →
    before.carryOut operation.verb objectClass operation.object = .ok (result, after) →
    Kept after

theorem performAll_keeps {Kept : Contents → Prop} {rules : List FailureRule}
    {batch : List Operation} {answers : List StoreObject}
    (keeps : ∀ operation ∈ batch, Keeps Kept operation) (kept : Kept contents)
    (performed : contents.performAll rules batch = .ok (answers, after)) :
    Kept after := by
  induction batch generalizing contents answers with
  | nil =>
      cases performed
      exact kept
  | cons operation rest induction =>
      rcases performAll_cons_eq_ok_iff.mp performed with
        ⟨answer, others, next, first, later, -⟩
      rcases perform_eq_ok_iff.mp first with
        ⟨-, objectClass, result, samePath, carried, -⟩
      have keptNext := keeps operation List.mem_cons_self samePath kept carried
      exact induction (fun other member => keeps other (List.mem_cons_of_mem _ member))
        keptNext later

theorem performAll_singleton_eq_ok_iff {rules : List FailureRule} {operation : Operation}
    {answers : List StoreObject} :
    contents.performAll rules [operation] = .ok (answers, after) ↔
      ∃ answer, contents.perform rules operation = .ok (answer, after) ∧
      answers = [answer] := by
  rw [performAll_cons_eq_ok_iff]
  constructor
  · rintro ⟨answer, others, next, first, later, rfl⟩
    cases later
    exact ⟨answer, first, rfl⟩
  · rintro ⟨answer, first, rfl⟩
    exact ⟨answer, [], after, first, rfl, rfl⟩

theorem performAll_singleton_of_unruled {rules : List FailureRule} {operation : Operation}
    {answers : List StoreObject}
    (unruled : ∀ rule ∈ rules, ¬rule.applies operation = true)
    (isOf : operation.object.classPath = objectClass.path) :
    contents.performAll rules [operation] = .ok (answers, after) ↔
      ∃ result, contents.carryOut operation.verb objectClass operation.object =
        .ok (result, after) ∧ answers = [result.answer objectClass] := by
  simp only [performAll_singleton_eq_ok_iff, perform_eq_ok_iff, isOf,
    ObjectClass.path_inj]
  constructor
  · rintro ⟨_, ⟨-, _, result, rfl, carried, rfl⟩, rfl⟩
    exact ⟨result, carried, rfl⟩
  · rintro ⟨result, carried, rfl⟩
    exact ⟨_, ⟨unruled, objectClass, result, rfl, carried, rfl⟩, rfl⟩

end Contents

namespace Memory

variable {memory : Memory} {batch : List Operation}

theorem transact_of_ok {answers : List StoreObject} {contents : Contents}
    (performed : memory.contents.performAll memory.rules batch =
      .ok (answers, contents)) :
    memory.transact batch =
      (.ok answers, { memory with contents, log := memory.log ++ batch }) := by
  simp [transact, performed]

theorem transact_of_error {reason : Rejection}
    (rejected : memory.contents.performAll memory.rules batch = .error reason) :
    memory.transact batch = (.error (.rejected reason), memory) := by
  simp [transact, rejected]

theorem transact_eq_ok_iff {answers : List StoreObject} {after : Memory} :
    memory.transact batch = (.ok answers, after) ↔
      ∃ contents, memory.contents.performAll memory.rules batch =
        .ok (answers, contents) ∧
        after = { memory with contents, log := memory.log ++ batch } := by
  cases performed : memory.contents.performAll memory.rules batch with
  | error reason => simp [transact_of_error performed]
  | ok result =>
      rcases result with ⟨given, contents⟩
      simp only [transact_of_ok performed, Prod.mk.injEq, Except.ok.injEq]
      constructor
      · rintro ⟨rfl, rfl⟩
        exact ⟨contents, ⟨rfl, rfl⟩, rfl⟩
      · rintro ⟨_, ⟨rfl, rfl⟩, rfl⟩
        exact ⟨rfl, rfl⟩

theorem isOk_transact_iff :
    (memory.transact batch).1.isOk = true ↔
      ∃ answers after, memory.transact batch = (.ok answers, after) := by
  rcases memory.transact batch with ⟨reply, after⟩
  cases reply with
  | error error =>
      constructor
      · intro accepted
        cases accepted
      · rintro ⟨answers, after, accepted⟩
        cases accepted
  | ok answers => exact ⟨fun _ => ⟨answers, after, rfl⟩, fun _ => rfl⟩

theorem transact_unchanged (rejected : ¬(memory.transact batch).1.isOk = true) :
    (memory.transact batch).2 = memory := by
  cases performed : memory.contents.performAll memory.rules batch with
  | error reason => rw [transact_of_error performed]
  | ok result =>
      rw [transact_of_ok performed] at rejected
      exact absurd rfl rejected

/-- An accepted batch keeps what its operations keep, and a rejected one keeps all. -/
theorem transact_keeps {Kept : Contents → Prop}
    (keeps : ∀ operation ∈ batch, Contents.Keeps Kept operation)
    (kept : Kept memory.contents) :
    Kept (memory.transact batch).2.contents := by
  cases performed : memory.contents.performAll memory.rules batch with
  | error reason =>
      rw [transact_of_error performed]
      exact kept
  | ok result =>
      rw [transact_of_ok performed]
      exact Contents.performAll_keeps keeps kept performed

theorem transact_singleton_eq_ok_iff {operation : Operation} {objectClass : ObjectClass}
    {answers : List StoreObject} {after : Memory}
    (unruled : ∀ rule ∈ memory.rules, ¬rule.applies operation = true)
    (isOf : operation.object.classPath = objectClass.path) :
    memory.transact [operation] = (.ok answers, after) ↔
      ∃ result contents, memory.contents.carryOut operation.verb objectClass
        operation.object =
        .ok (result, contents) ∧ answers = [result.answer objectClass] ∧
        after = { memory with contents, log := memory.log ++ [operation] } := by
  simp only [transact_eq_ok_iff, Contents.performAll_singleton_of_unruled unruled isOf]
  constructor
  · rintro ⟨contents, ⟨result, carried, rfl⟩, rfl⟩
    exact ⟨result, contents, carried, rfl, rfl⟩
  · rintro ⟨result, contents, carried, rfl, rfl⟩
    exact ⟨contents, ⟨result, carried, rfl⟩, rfl⟩

theorem carryOut_of_transact {operation : Operation} {objectClass : ObjectClass}
    {answers : List StoreObject} {after : Memory}
    (isOf : operation.object.classPath = objectClass.path)
    (accepted : memory.transact [operation] = (.ok answers, after)) :
    ∃ result contents, memory.contents.carryOut operation.verb objectClass
      operation.object =
        .ok (result, contents) ∧ answers = [result.answer objectClass] ∧
        after = { memory with contents, log := memory.log ++ [operation] } := by
  rcases transact_eq_ok_iff.mp accepted with ⟨contents, performed, rfl⟩
  rcases Contents.performAll_singleton_eq_ok_iff.mp performed with ⟨_, single, rfl⟩
  rcases Contents.perform_eq_ok_iff.mp single with
    ⟨-, otherClass, result, otherOf, carried, rfl⟩
  rcases ObjectClass.path_injective (isOf.symm.trans otherOf) with rfl
  exact ⟨result, contents, carried, rfl, rfl⟩

theorem transact_of_carryOut (operation : Operation) (unruled : memory.rules = [])
    {objectClass : ObjectClass} {result : StoreObject} {after : Contents}
    (samePath : operation.object.classPath = objectClass.path)
    (carried : memory.contents.carryOut operation.verb objectClass operation.object =
      .ok (result, after)) :
    memory.transact [operation] =
      (.ok [result.answer objectClass],
        { memory with contents := after, log := memory.log ++ [operation] }) :=
  (transact_singleton_eq_ok_iff (by simp [unruled]) samePath).mpr
    ⟨result, after, carried, rfl, rfl⟩

theorem exists_transact_refused {operation : Operation} {objectClass : ObjectClass}
    {reason : Rejection} (unruled : memory.rules = [])
    (isOf : operation.object.classPath = objectClass.path)
    (failed : memory.contents.carryOut operation.verb objectClass operation.object =
      .error reason) :
    ∃ error, memory.transact [operation] = (.error error, memory) := by
  cases performed : memory.contents.performAll memory.rules [operation] with
  | error reason => exact ⟨_, transact_of_error performed⟩
  | ok outcome =>
      have accepted := transact_of_ok performed
      rcases (transact_singleton_eq_ok_iff (by simp [unruled]) isOf).mp accepted with
        ⟨result, contents, carried, -⟩
      cases failed.symm.trans carried

theorem query_eq_found (template : StoreObject) {objectClass : ObjectClass}
    (available : memory.unavailable = 0) (isOf : template.classPath = objectClass.path) :
    memory.query template =
      (.ok (((memory.contents.ofClass objectClass).filter fun stored =>
        stored.agreesWith template).map fun stored =>
          (found memory.contents objectClass stored).answer objectClass), memory) := by
  rw [query, if_neg (by simp [available]), isOf, ObjectClass.ofPath_path]

theorem query_eq (template : StoreObject) {objectClass : ObjectClass}
    (available : memory.unavailable = 0) (isOf : template.classPath = objectClass.path)
    (noTable : ∀ mapType, objectClass ≠ .mapTable mapType) :
    memory.query template =
      (.ok (((memory.contents.ofClass objectClass).filter fun stored =>
        stored.agreesWith template).map (StoreObject.answer objectClass)), memory) := by
  have whole : ∀ stored, found memory.contents objectClass stored = stored := by
    intro stored
    cases objectClass with
    | mapTable mapType => exact absurd rfl (noTable mapType)
    | _ => rfl
  simp only [query_eq_found template available isOf, whole]

theorem contents_query {template : StoreObject} :
    (memory.query template).2.contents = memory.contents := by
  rw [query]
  split
  · rfl
  · split <;> rfl

theorem rules_query {template : StoreObject} :
    (memory.query template).2.rules = memory.rules := by
  rw [query]
  split
  · rfl
  · split <;> rfl

theorem contents_listPorts {interfaceClass : InterfaceClass} :
    (memory.listPorts interfaceClass).2.contents = memory.contents := by
  cases interfaceClass <;> rfl

theorem rules_listPorts {interfaceClass : InterfaceClass} :
    (memory.listPorts interfaceClass).2.rules = memory.rules := by
  cases interfaceClass <;> rfl

@[simp] theorem contents_refuseAll (verb : Verb) (objectClass : ObjectClass) :
    (memory.refuseAll verb objectClass).contents = memory.contents := rfl

@[simp] theorem unavailable_refuseAll (verb : Verb) (objectClass : ObjectClass) :
    (memory.refuseAll verb objectClass).unavailable = memory.unavailable := rfl

theorem rules_transact : (memory.transact batch).2.rules = memory.rules := by
  cases performed : memory.contents.performAll memory.rules batch with
  | error reason => rw [transact_of_error performed]
  | ok result => rw [transact_of_ok performed]

theorem unavailable_transact :
    (memory.transact batch).2.unavailable = memory.unavailable := by
  cases performed : memory.contents.performAll memory.rules batch with
  | error reason => rw [transact_of_error performed]
  | ok result => rw [transact_of_ok performed]

end Memory

end SwitchQos
