import SwitchQos.Proofs.Store.Operations

namespace SwitchQos

/-! A batch is the composition of its parts. Operations see what the earlier ones of
their batch have done, so a batch that is cut in two has the effect of its parts one
after the other; but when any operation fails, nothing of the whole batch stays. -/

namespace Contents

variable {rules : List FailureRule} {contents after : Contents} {batch : List Operation}
  {answers : List StoreObject}

theorem performAll_append_eq_ok_iff {first second : List Operation} :
    contents.performAll rules (first ++ second) = .ok (answers, after) ↔
      ∃ before middle behind, contents.performAll rules first = .ok (before, middle) ∧
        middle.performAll rules second = .ok (behind, after) ∧
        answers = before ++ behind := by
  induction first generalizing contents answers with
  | nil =>
      constructor
      · intro performed
        exact ⟨[], contents, answers, rfl, performed, rfl⟩
      · rintro ⟨_, _, behind, same, performed, rfl⟩
        cases same
        exact performed
  | cons operation rest induction =>
      simp only [List.cons_append, performAll_cons_eq_ok_iff, induction]
      constructor
      · rintro ⟨answer, _, next, done,
          ⟨before, middle, behind, restDone, secondDone, rfl⟩, rfl⟩
        exact ⟨answer :: before, middle, behind,
          ⟨answer, before, next, done, restDone, rfl⟩,
          secondDone, rfl⟩
      · rintro ⟨_, middle, behind, ⟨answer, before, next, done, restDone, rfl⟩,
          secondDone, rfl⟩
        exact ⟨answer, before ++ behind, next, done,
          ⟨before, middle, behind, restDone, secondDone, rfl⟩, rfl⟩

/-- Failure rules make no difference but for the operations that they refuse. -/
theorem performAll_eq_ok_iff_unruled :
    contents.performAll rules batch = .ok (answers, after) ↔
      (∀ operation ∈ batch, ∀ rule ∈ rules, ¬rule.applies operation = true) ∧
        contents.performAll [] batch = .ok (answers, after) := by
  induction batch generalizing contents answers with
  | nil => exact (and_iff_right (List.forall_mem_nil _)).symm
  | cons operation rest induction =>
      have spared : ∀ rule ∈ ([] : List FailureRule), ¬rule.applies operation = true :=
        List.forall_mem_nil _
      simp only [performAll_cons_eq_ok_iff, perform_eq_ok_iff, induction,
        List.forall_mem_cons, and_iff_right spared]
      constructor
      · rintro ⟨answer, others, next, ⟨unruled, carried⟩, ⟨othersUnruled, performed⟩, rfl⟩
        exact ⟨⟨unruled, othersUnruled⟩, answer, others, next, carried, performed, rfl⟩
      · rintro ⟨⟨unruled, othersUnruled⟩, answer, others, next, carried, performed, rfl⟩
        exact ⟨answer, others, next, ⟨unruled, carried⟩, ⟨othersUnruled, performed⟩, rfl⟩

theorem length_of_performAll
    (performed : contents.performAll rules batch = .ok (answers, after)) :
    answers.length = batch.length := by
  induction batch generalizing contents answers with
  | nil =>
      cases performed
      rfl
  | cons operation rest induction =>
      rcases performAll_cons_eq_ok_iff.mp performed with
        ⟨answer, others, next, -, later, rfl⟩
      rw [List.length_cons, List.length_cons, induction later]

end Contents

namespace Memory

/-- Two batches submitted as one are accepted if they are accepted one after the
other, and then they lead to the same store, with the same log, and get the same
answers: one for each operation, in order. A batch that is not accepted leaves the
store as it was, wherever it failed. -/
theorem transact_append (memory : Memory) (first second : List Operation) :
    (∀ answers after, memory.transact (first ++ second) = (.ok answers, after) ↔
      ∃ before middle behind, memory.transact first = (.ok before, middle) ∧
        middle.transact second = (.ok behind, after) ∧ answers = before ++ behind) ∧
    (∀ answers after, memory.transact (first ++ second) = (.ok answers, after) →
      answers.length = (first ++ second).length) ∧
    ∀ error after, memory.transact (first ++ second) = (.error error, after) →
      after = memory := by
  refine ⟨fun answers after => ?_, fun answers after accepted => ?_,
    fun error after rejected => ?_⟩
  · simp only [transact_eq_ok_iff, Contents.performAll_append_eq_ok_iff]
    constructor
    · rintro ⟨contents, ⟨before, middle, behind, firstDone, secondDone, rfl⟩, rfl⟩
      refine ⟨before, _, behind, ⟨middle, firstDone, rfl⟩,
        ⟨contents, secondDone, ?_⟩, rfl⟩
      rw [List.append_assoc]
    · rintro ⟨before, _, behind, ⟨middle, firstDone, rfl⟩,
        ⟨contents, secondDone, rfl⟩, rfl⟩
      refine ⟨contents, ⟨before, middle, behind, firstDone, secondDone, rfl⟩, ?_⟩
      rw [List.append_assoc]
  · rcases transact_eq_ok_iff.mp accepted with ⟨contents, performed, -⟩
    exact Contents.length_of_performAll performed
  · have unchanged := @transact_unchanged memory (first ++ second)
    rw [rejected] at unchanged
    exact unchanged fun accepted => by cases accepted

/-- An entry finds the table that its own batch has created. When the entry comes a
second time, the table goes as well. -/
theorem transact_append_entry :
    let table := (ObjectClass.mapTable .dot1pToTc).assemble []
    let entry := (ObjectClass.mapEntry .dot1pToTc).assemble
      [("dot1p", Storage.uint8.word 7), ("id", Storage.uint64.word 4096)]
    let start := Memory.new 0
    let middle := (start.transact [⟨.create, table⟩]).2
    let after := (middle.transact [⟨.create, entry⟩]).2
    let repeated :=
      start.transact ([⟨.create, table⟩] ++ [⟨.create, entry⟩, ⟨.create, entry⟩])
    (∃ answers, start.transact ([⟨.create, table⟩] ++ [⟨.create, entry⟩]) =
      (.ok answers, after) ∧
      answers.length = 2) ∧
    after.contents.objects.length = 2 ∧
    repeated.1 =
      .error (.rejected (.alreadyExists (ObjectClass.mapEntry .dot1pToTc).path)) ∧
    repeated.2 = start := by
  intro table entry start middle after repeated
  have tableDone : start.transact [⟨.create, table⟩] =
      (.ok [((ObjectClass.mapTable .dot1pToTc).assemble
        [("id", Storage.uint64.word 4096)]).answer (.mapTable .dot1pToTc)], middle) := by
    decide +kernel
  have entryDone : middle.transact [⟨.create, entry⟩] =
      (.ok [entry.answer (.mapEntry .dot1pToTc)], after) := by
    decide +kernel
  have together :=
    (transact_append start [⟨.create, table⟩] [⟨.create, entry⟩]).1 _ after |>.mpr
    ⟨_, middle, _, tableDone, entryDone, rfl⟩
  have answered := (transact_append start _ _).2.1 _ after together
  have rejected : repeated.1 =
      .error (.rejected (.alreadyExists (ObjectClass.mapEntry .dot1pToTc).path)) := by
    decide +kernel
  have unchanged := (transact_append start _ _).2.2 _ repeated.2 (Prod.ext rejected rfl)
  exact ⟨⟨_, together, answered⟩, by decide +kernel, rejected, unchanged⟩

end Memory

end SwitchQos
