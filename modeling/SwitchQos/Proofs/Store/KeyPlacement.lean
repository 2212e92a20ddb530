import SwitchQos.Proofs.Store.Operations

namespace SwitchQos

/-! An object can carry its keys among its own attributes or as key data, as it does when
the store answers. To set or delete an entity, and to the failure rules, this makes no
difference: they all take the view that puts key data first. A creation is different. It
looks for the id, also that of a parent, among the own attributes alone, and stores the
object the way it came, where queries do not see its key data. -/

namespace Operation

def keysMoved (operation : Operation) : Operation :=
  match ObjectClass.ofPath? operation.object.classPath with
  | none => operation
  | some objectClass => { operation with object := operation.object.answer objectClass }

/-- Either the operation stays as it is, or its keys are moved; only a creation has to
stay. -/
inductive MovesKeys : Operation → Operation → Prop
  | stays (operation : Operation) : MovesKeys operation operation
  | moves {operation : Operation} (present : operation.verb ≠ .create) :
      MovesKeys operation operation.keysMoved

structure SameView (left right : Operation) : Prop where
  verb : left.verb = right.verb
  classPath : left.object.classPath = right.object.classPath
  view : left.object.flattened = right.object.flattened
  creation : left.verb = .create → left = right

variable {left right operation : Operation}

theorem MovesKeys.sameView (moves : MovesKeys left right) (plain : left.object.IsPlain)
    (ordered : left.object.attrs.Ordered) : SameView left right := by
  cases moves with
  | stays => exact ⟨rfl, rfl, rfl, fun _ => rfl⟩
  | moves present =>
      rw [keysMoved]
      split
      · exact ⟨rfl, rfl, rfl, fun _ => rfl⟩
      · exact ⟨rfl, rfl, (StoreObject.flattened_answer plain ordered _).symm,
          fun creates => absurd creates present⟩

end Operation

namespace Contents

variable {contents : Contents} {objectClass : ObjectClass} {left right : StoreObject}

theorem addressed_congr (same : left.flattened = right.flattened) :
    addressed objectClass left = addressed objectClass right := by
  have identity : objectClass.identity? left = objectClass.identity? right :=
    ObjectClass.identity?_congr fun attr _ => StoreObject.lookup_congr same _
  funext stored
  rw [addressed, addressed, ObjectClass.sameEntity, ObjectClass.sameEntity, identity]

theorem set_congr (same : left.flattened = right.flattened) :
    contents.set objectClass left = contents.set objectClass right := by
  have merged : ∀ stored : StoreObject, stored.mergeFrom left =
      stored.mergeFrom right := by
    intro stored
    rw [StoreObject.mergeFrom, StoreObject.mergeFrom, same]
  simp only [set, addressed_congr same, merged]

theorem delete_congr (same : left.flattened = right.flattened) :
    contents.delete objectClass left = contents.delete objectClass right := by
  simp only [delete, addressed_congr same]

end Contents

theorem FailureRule.applies_congr {left right : Operation} (same : left.SameView right)
    (rule : FailureRule) : rule.applies left = rule.applies right := by
  simp only [FailureRule.applies, same.verb, same.classPath,
    StoreObject.lookup_congr same.view]

namespace Contents

variable {rules : List FailureRule}

theorem perform_congr (contents : Contents) {left right : Operation}
    (same : left.SameView right) :
    contents.perform rules left = contents.perform rules right := by
  by_cases creates : left.verb = .create
  · rw [same.creation creates]
  · have applies : (rules.any fun rule => rule.applies left) =
        rules.any fun rule => rule.applies right := by
      simp only [FailureRule.applies_congr same]
    have classes := same.classPath
    have verbs := same.verb
    have views := same.view
    rcases left with ⟨verb, left⟩
    rcases right with ⟨otherVerb, right⟩
    cases verbs
    rw [perform, perform, applies, classes]
    cases verb with
    | create => exact absurd rfl creates
    | set => simp only [set_congr views]
    | delete => simp only [delete_congr views]

theorem performAll_congr (contents : Contents) {batch moved : List Operation}
    (same : List.Forall₂ Operation.SameView batch moved) :
    contents.performAll rules batch = contents.performAll rules moved := by
  induction same generalizing contents with
  | nil => rfl
  | cons first _ induction =>
      rw [performAll, performAll, perform_congr contents first]
      simp only [induction]

end Contents

namespace Memory

variable {left right : Memory} {batch moved : List Operation}

theorem query_congr (contents : left.contents = right.contents)
    (availability : left.unavailable = right.unavailable) (template : StoreObject) :
    (left.query template).1 = (right.query template).1 := by
  rw [query, query, contents, availability]
  split
  · rfl
  · split <;> rfl

theorem transact_congr (memory : Memory)
    (same : List.Forall₂ Operation.SameView batch moved) :
    (memory.transact moved).1 = (memory.transact batch).1 ∧
      (memory.transact moved).2.contents = (memory.transact batch).2.contents := by
  rw [transact, transact, memory.contents.performAll_congr same]
  cases memory.contents.performAll memory.rules moved with
  | error reason => exact ⟨rfl, rfl⟩
  | ok result => exact ⟨rfl, rfl⟩

/-- Setting and deleting do not depend on where the objects carry their keys: a batch
gets the same reply when keys are moved in any objects but those it creates, and
afterwards every query finds the same and every object addresses the same entity. -/
theorem transact_keysMoved (memory : Memory)
    (plain : ∀ operation ∈ batch, operation.object.IsPlain)
    (ordered : ∀ operation ∈ batch, operation.object.attrs.Ordered)
    (moves : List.Forall₂ Operation.MovesKeys batch moved) :
    (memory.transact moved).1 = (memory.transact batch).1 ∧
      (memory.transact moved).2.contents = (memory.transact batch).2.contents ∧
      (∀ template, ((memory.transact moved).2.query template).1 =
        ((memory.transact batch).2.query template).1) ∧
      ∀ objectClass object,
        (memory.transact moved).2.contents.objects.find?
            (Contents.addressed objectClass object) =
          (memory.transact batch).2.contents.objects.find?
            (Contents.addressed objectClass object) := by
  have same : List.Forall₂ Operation.SameView batch moved := by
    induction moves with
    | nil => exact .nil
    | cons first _ induction =>
        refine .cons (first.sameView (plain _ List.mem_cons_self)
          (ordered _ List.mem_cons_self)) (induction ?_ ?_)
        · exact fun operation member => plain operation (List.mem_cons_of_mem _ member)
        · exact fun operation member => ordered operation (List.mem_cons_of_mem _ member)
  rcases transact_congr memory same with ⟨reply, contents⟩
  refine ⟨reply, contents, query_congr contents ?_,
    fun objectClass object => by rw [contents]⟩
  rw [unavailable_transact, unavailable_transact]

/-- A table with one entry: the entry is set and the table deleted, both by key data. -/
theorem transact_keysMoved_entry :
    let table :=
  (ObjectClass.mapTable .dot1pToTc).assemble [("id", Storage.uint64.word 5)]
    let entry := (ObjectClass.mapEntry .dot1pToTc).assemble
      [("tc", Storage.uint8.word 3), ("dot1p", Storage.uint8.word 7),
        ("id", Storage.uint64.word 5)]
    let filled := ((Memory.new 0).transact [⟨.create, table⟩, ⟨.create, entry⟩]).2
    let batch := [Operation.mk .set entry, Operation.mk .delete table]
    (filled.transact (batch.map Operation.keysMoved)).1 = (filled.transact batch).1 ∧
      (filled.transact batch).1.isOk = true ∧
      (filled.transact (batch.map Operation.keysMoved)).2.contents.objects = [] := by
  intro table entry filled batch
  have moves : List.Forall₂ Operation.MovesKeys batch (batch.map Operation.keysMoved) :=
    .cons (.moves (by decide)) (.cons (.moves (by decide)) .nil)
  rcases transact_keysMoved filled (by decide +kernel) (by decide +kernel) moves with
      ⟨reply, contents, -, -⟩
  refine ⟨reply, by decide +kernel, ?_⟩
  rw [contents]
  decide +kernel

/-- An entry whose keys are moved cannot be created, although its table is there. -/
theorem transact_keysMoved_refuted :
    let table := (ObjectClass.mapTable .dot1pToTc).assemble []
    let entry := (ObjectClass.mapEntry .dot1pToTc).assemble
      [("tc", Storage.uint8.word 3), ("dot1p", Storage.uint8.word 7),
        ("id", Storage.uint64.word 4096)]
    let memory := ((Memory.new 0).transact [⟨.create, table⟩]).2
    (∀ stored ∈ memory.contents.objects, stored.IsPlain) ∧
      entry.IsPlain ∧ entry.attrs.Ordered ∧
      (memory.transact [⟨.create, entry⟩]).1.isOk = true ∧
      memory.transact [Operation.keysMoved ⟨.create, entry⟩] =
        (.error (.rejected (.parentMissing (ObjectClass.mapTable .dot1pToTc).path)),
          memory) := by
  decide +kernel

end Memory

end SwitchQos
