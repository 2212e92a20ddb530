import SwitchQos.Proofs.Provision.Staging
import SwitchQos.Proofs.Store.Turns

namespace SwitchQos

/-! A handle of a table takes calls one after the other: some stage entries and some
commit, and any of them may fail. What is pending are the operations staged since the last
commit that was accepted. A handle holds just these, so every commit submits them, and an
accepted one ends the round of calls that have staged them. -/

/-! ## Calls -/

inductive TableCall where
  | stage (edit : Edit)
  | commit

structure CallReport where
  error? : Option ProvisionError
  table : MapTable

namespace MapTable

def report (table : MapTable) : Except ProvisionError MapTable → CallReport
  | .ok after => ⟨none, after⟩
  | .error error => ⟨some error, table⟩

def call (table : MapTable) : TableCall → Exchange CallReport
  | .stage edit => return table.report (table.stage edit)
  | .commit => return table.report (← table.commit.run)

def after (table : MapTable) (reports : List CallReport) : MapTable :=
  reports.foldl (fun _ report => report.table) table

def session (table : MapTable) : List TableCall → Exchange (List CallReport)
  | [] => return []
  | call :: rest => do
      let report ← table.call call
      let others ← session report.table rest
      return report :: others

end MapTable

/-! ## Pending operations -/

namespace Operation

def withVerb (verb : Verb) (operations : List Operation) : List Operation :=
  operations.filter fun operation => operation.verb = verb

def arranged (operations : List Operation) : List Operation :=
  withVerb .create operations ++ withVerb .set operations ++ withVerb .delete operations

@[simp] theorem withVerb_append (verb : Verb) (first second : List Operation) :
    withVerb verb (first ++ second) = withVerb verb first ++ withVerb verb second :=
  List.filter_append _ _

@[simp] theorem withVerb_map (verb own : Verb) (objects : List StoreObject) :
    withVerb verb (objects.map (Operation.mk own)) =
      if own = verb then objects.map (Operation.mk own) else [] := by
  split
  · exact List.filter_eq_self.mpr (by simp_all)
  · exact List.filter_eq_nil_iff.mpr (by simp_all)

@[simp] theorem map_object_comp_mk (verb : Verb) (objects : List StoreObject) :
    objects.map (Operation.object ∘ Operation.mk verb) = objects := List.map_id _

theorem map_object_withVerb (verb : Verb) (operations : List Operation) :
    ((withVerb verb operations).map Operation.object).map (Operation.mk verb) =
      withVerb verb operations := by
  rw [List.map_map]
  refine (List.map_congr_left fun operation member => ?_).trans (List.map_id _)
  have isOf := of_decide_eq_true (List.mem_filter.mp member).2
  rw [← isOf]
  rfl

theorem arranged_perm (operations : List Operation) :
    (arranged operations).Perm operations := by
  induction operations with
  | nil => exact .nil
  | cons operation rest induction =>
      refine List.Perm.trans ?_ (induction.cons operation)
      rcases operation with ⟨verb, object⟩
      cases verb with
      | create => exact .refl _
      | set =>
          simp only [arranged, List.append_assoc]
          exact List.perm_middle
      | delete => exact List.perm_middle

end Operation

namespace MapTable

open Operation

def holding (table : MapTable) (pending : List Operation) : MapTable :=
  { table with
    created := (withVerb .create pending).map Operation.object
    modified := (withVerb .set pending).map Operation.object
    deleted := (withVerb .delete pending).map Operation.object }

theorem batch_holding (table : MapTable) (pending : List Operation) :
    (table.holding pending).batch = arranged pending := by
  simp only [batch, holding, map_object_withVerb, arranged]

theorem holding_batch (table : MapTable) : table.holding table.batch = table := by
  rcases table with ⟨mapType, switchId, id, created, modified, deleted⟩
  simp [holding, batch, Function.comp_def]

theorem staged_holding (table : MapTable) (pending : List Operation) :
    (table.holding pending).staged = pending.length := by
  rw [← length_batch, batch_holding, (arranged_perm pending).length_eq]

theorem stage_holding (table : MapTable) (pending : List Operation) (edit : Edit) :
    (table.holding pending).stage edit =
      ((table.address.entryObjects edit.entry edit.range edit.arity).map fun objects =>
        table.holding (pending ++ objects.map (Operation.mk edit.verb))).mapError
          .codec := by
  have same : (table.holding pending).address = table.address := rfl
  rcases edit with ⟨verb, entry, range⟩
  cases verb with
  | create | set | delete =>
      simp only [stage, add, modify, remove, Edit.arity, same]
      cases table.address.entryObjects entry range _ with
      | error cause => rfl
      | ok objects => simp [Except.mapError, Except.map, bind, Except.bind, holding]

end MapTable

/-! ## Courses -/

inductive CallEvent where
  | staged (operations : List Operation)
  | unstaged
  | idle
  | accepted (batch : List Operation) (answers : List StoreObject)
  | rejected (batch : List Operation) (cause : StoreError)

namespace CallEvent

def turns : CallEvent → List Turn
  | .staged _ | .unstaged | .idle => []
  | .accepted batch answers => [.submitted batch (.ok answers)]
  | .rejected batch cause => [.submitted batch (.error cause)]

def operations : CallEvent → List Operation
  | .staged operations => operations
  | .unstaged | .idle | .accepted _ _ | .rejected _ _ => []

def submitted : CallEvent → List Operation
  | .accepted batch _ => batch
  | .staged _ | .unstaged | .idle | .rejected _ _ => []

def IsOpen : CallEvent → Prop
  | .accepted _ _ => False
  | .staged _ | .unstaged | .idle | .rejected _ _ => True

theorem IsOpen.submitted_eq {event : CallEvent} (isOpen : event.IsOpen) :
    event.submitted = [] := by
  cases event with
  | accepted batch answers => exact isOpen.elim
  | staged | unstaged | idle | rejected => rfl

end CallEvent

namespace MapTable

open Operation Exchange

variable {table : MapTable} {pending last : List Operation}

/-- What a call does to a handle with these operations pending, how the handle is left,
and what is pending then. -/
inductive CallCourse (table : MapTable) (pending : List Operation) :
    TableCall → CallEvent → CallReport → List Operation → Prop
  | staged {edit : Edit} {objects : List StoreObject}
      (built : table.address.entryObjects edit.entry edit.range
        edit.arity = .ok objects) :
      CallCourse table pending (.stage edit)
        (.staged (objects.map (Operation.mk edit.verb)))
        ⟨none, table.holding (pending ++ objects.map (Operation.mk edit.verb))⟩
        (pending ++ objects.map (Operation.mk edit.verb))
  | unstaged {edit : Edit} {cause : CodecError}
      (unbuilt : table.address.entryObjects edit.entry edit.range
        edit.arity = .error cause) :
      CallCourse table pending (.stage edit) .unstaged
        ⟨some (.codec cause), table.holding pending⟩ pending
  | idle (nothing : pending = []) :
      CallCourse table pending .commit .idle ⟨none, table.holding []⟩ []
  | accepted (something : pending ≠ []) (answers : List StoreObject) :
      CallCourse table pending .commit (.accepted (arranged pending) answers)
        ⟨none, table.holding []⟩ []
  | rejected (something : pending ≠ []) (cause : StoreError) :
      CallCourse table pending .commit (.rejected (arranged pending) cause)
        ⟨some (.transactionFailed table.name cause.message),
          table.holding pending⟩ pending

inductive SessionCourse (table : MapTable) :
    List Operation → List TableCall → List CallEvent → List CallReport →
    List Operation → Prop
  | nil {pending : List Operation} : SessionCourse table pending [] [] [] pending
  | cons {pending middle last : List Operation} {call : TableCall} {event : CallEvent}
      {report : CallReport} {calls : List TableCall} {events : List CallEvent}
      {reports : List CallReport}
      (first : CallCourse table pending call event report middle)
      (others : SessionCourse table middle calls events reports last) :
      SessionCourse table pending (call :: calls) (event :: events)
        (report :: reports) last

theorem CallCourse.table_eq {call : TableCall} {event : CallEvent} {report : CallReport}
    (course : table.CallCourse pending call event report last) :
    report.table = table.holding last := by
  cases course <;> rfl

theorem always_call (table : MapTable) (pending : List Operation) (call : TableCall) :
    ((table.holding pending).call call).Always fun turns report => ∃ event last,
      turns = event.turns ∧ table.CallCourse pending call event report last := by
  cases call with
  | stage edit =>
      rw [MapTable.call, stage_holding]
      cases built : table.address.entryObjects edit.entry edit.range edit.arity with
      | ok objects => exact ⟨_, _, rfl, .staged built⟩
      | error cause => exact ⟨_, _, rfl, .unstaged built⟩
  | commit =>
      rw [MapTable.call, commit, batch_holding]
      by_cases nothing : pending = []
      · subst nothing
        exact ⟨_, _, rfl, .idle rfl⟩
      · rw [if_neg fun none => nothing (List.eq_nil_of_length_eq_zero
          ((staged_holding table pending).symm.trans none))]
        intro reply
        cases reply with
        | ok answers => exact ⟨_, _, rfl, .accepted nothing answers⟩
        | error cause => exact ⟨_, _, rfl, .rejected nothing cause⟩

theorem always_session (table : MapTable) (pending : List Operation)
    (calls : List TableCall) :
    ((table.holding pending).session calls).Always fun turns reports => ∃ events last,
      turns = events.flatMap CallEvent.turns ∧
        table.SessionCourse pending calls events reports last := by
  induction calls generalizing pending with
  | nil => exact ⟨[], pending, rfl, .nil⟩
  | cons call rest induction =>
      refine (always_call table pending call).bind ?_
      rintro _ report ⟨event, middle, rfl, first⟩
      rw [first.table_eq]
      refine Always.map _ ((induction middle).mono ?_)
      rintro _ reports ⟨events, last, rfl, others⟩
      exact ⟨event :: events, last, rfl, .cons first others⟩

/-! ## Rounds -/

end MapTable

structure CallRound where
  events : List CallEvent
  isOpen : ∀ event ∈ events, event.IsOpen
  answers : List StoreObject

namespace CallRound

open Operation

def operations (round : CallRound) : List Operation :=
  round.events.flatMap CallEvent.operations

def all (round : CallRound) : List CallEvent :=
  round.events ++ [.accepted (arranged round.operations) round.answers]

end CallRound

namespace MapTable

open Operation

variable {table : MapTable} {pending last : List Operation}

/-- An accepted commit submits what is pending. Nothing else takes anything away. -/
theorem CallCourse.cases_open {call : TableCall} {event : CallEvent} {report : CallReport}
    (course : table.CallCourse pending call event report last) :
    (event.IsOpen ∧ last = pending ++ event.operations) ∨
      ∃ answers, event = .accepted (arranged pending) answers ∧ last = [] := by
  cases course with
  | staged => exact .inl ⟨trivial, rfl⟩
  | unstaged | rejected => exact .inl ⟨trivial, (List.append_nil _).symm⟩
  | idle nothing => exact .inl ⟨trivial, by rw [nothing]; rfl⟩
  | accepted something answers => exact .inr ⟨answers, rfl, rfl⟩

/-- A session is cut into rounds by the commits that are accepted. -/
theorem SessionCourse.exists_rounds {calls : List TableCall} {events : List CallEvent}
    {reports : List CallReport}
    (course : table.SessionCourse pending calls events reports last)
    (earlier : List CallEvent) (isOpen : ∀ event ∈ earlier, event.IsOpen)
    (arePending : earlier.flatMap CallEvent.operations = pending) :
    ∃ (rounds : List CallRound) (rest : List CallEvent),
      earlier ++ events = rounds.flatMap CallRound.all ++ rest ∧
        (∀ event ∈ rest, event.IsOpen) ∧ rest.flatMap CallEvent.operations = last := by
  -- The events before those of the course belong to the round that is still open.
  induction course generalizing earlier with
  | nil => exact ⟨[], earlier, List.append_nil _, isOpen, arePending⟩
  | @cons pending middle last call event report calls events reports first
      others induction =>
      rcases first.cases_open with ⟨stays, rfl⟩ | ⟨answers, rfl, rfl⟩
      · rcases induction (earlier ++ [event])
          (List.forall_mem_append.mpr ⟨isOpen, List.forall_mem_singleton.mpr stays⟩)
          (by rw [List.flatMap_append, arePending, List.flatMap_singleton])
          with ⟨rounds, rest, same, restOpen, arePending⟩
        exact ⟨rounds, rest, by rw [← same, List.append_assoc]; rfl, restOpen, arePending⟩
      · rcases induction [] (List.forall_mem_nil _) rfl with
          ⟨rounds, rest, same, restOpen, last⟩
        refine ⟨⟨earlier, isOpen, answers⟩ :: rounds, rest, ?_, restOpen, last⟩
        rw [List.flatMap_cons, CallRound.all, CallRound.operations, arePending,
          List.append_assoc, ← same, List.nil_append, List.append_assoc]
        rfl

theorem SessionCourse.after_eq {calls : List TableCall} {events : List CallEvent}
    {reports : List CallReport}
    (course : table.SessionCourse pending calls events reports last) :
    (table.holding pending).after reports = table.holding last := by
  induction course with
  | nil => rfl
  | cons first _ induction => rwa [after, List.foldl_cons, first.table_eq]

/-- What has been pending or has been staged is submitted once or is still pending. -/
theorem SessionCourse.conserves {calls : List TableCall} {events : List CallEvent}
    {reports : List CallReport}
    (course : table.SessionCourse pending calls events reports last) :
    (events.flatMap CallEvent.submitted ++ last).Perm
      (pending ++ events.flatMap CallEvent.operations) := by
  induction course with
  | nil => exact .of_eq (List.append_nil _).symm
  | @cons pending middle last call event report calls events reports first
      others induction =>
      rw [List.flatMap_cons, List.flatMap_cons]
      rcases first.cases_open with ⟨stays, rfl⟩ | ⟨answers, rfl, rfl⟩
      · rw [stays.submitted_eq, List.nil_append, ← List.append_assoc]
        exact induction
      · rw [List.append_assoc]
        exact (arranged_perm pending).append induction

/-- However the store replies, the calls of a session take their courses one after the
other, as what is pending on the handle at each of them says. No operation is lost and
none is submitted twice: each is in the batch that ends the round in which it has been
staged, or it is still pending in the end. What the handle holds at first counts as staged
before all calls. -/
theorem session_submits_each_once (table : MapTable) (calls : List TableCall) :
    (table.session calls).Always fun turns reports => ∃ events last,
      turns = events.flatMap CallEvent.turns ∧
      table.SessionCourse table.batch calls events reports last ∧
      table.after reports = table.holding last ∧
      (events.flatMap CallEvent.submitted ++ last).Perm
        (table.batch ++ events.flatMap CallEvent.operations) ∧
      ∃ (rounds : List CallRound) (rest : List CallEvent),
        .staged table.batch :: events = rounds.flatMap CallRound.all ++ rest ∧
          (∀ event ∈ rest, event.IsOpen) ∧ rest.flatMap CallEvent.operations = last := by
  have always := always_session table table.batch calls
  rw [holding_batch] at always
  refine always.mono ?_
  rintro turns reports ⟨events, last, same, course⟩
  have ends := course.after_eq
  rw [holding_batch] at ends
  exact ⟨events, last, same, course, ends, course.conserves, course.exists_rounds
    [.staged table.batch] (List.forall_mem_singleton.mpr trivial)
    (List.flatMap_singleton _ _)⟩

end MapTable

end SwitchQos
