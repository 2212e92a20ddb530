import SwitchQos.Proofs.Results
import SwitchQos.Proofs.Store.Exchange
import SwitchQos.Provision.Report

namespace SwitchQos

/-! How tasks come to an end, step by step, and what they submit. -/

namespace Task

open Exchange

variable {State Result Other : Type} {responder : Responder State}
  {before middle after : State}

/-! ## Sequences -/

theorem run_bind (task : Task Result) (next : Result → Task Other) :
    (task >>= next).run = task.run.bind fun result =>
      match result with
      | .ok value => (next value).run
      | .error error => .done (.error error) := by
  rw [ExceptT.run_bind, bind_eq_bind]
  congr 1
  funext result
  cases result <;> rfl

theorem ends_bind_iff {task : Task Result} {next : Result → Task Other}
    {result : Except ProvisionError Other} :
    (task >>= next).run.Ends responder before result after ↔
      (∃ value middle, task.run.Ends responder before (.ok value) middle ∧
        (next value).run.Ends responder middle result after) ∨
      ∃ error, task.run.Ends responder before (.error error) after ∧
      result = .error error := by
  rw [run_bind, Exchange.ends_bind_iff]
  constructor
  · rintro ⟨value, middle, first, last⟩
    cases value with
    | ok value => exact .inl ⟨value, middle, first, last⟩
    | error error =>
        rcases ends_done_iff.mp last with ⟨rfl, rfl⟩
        exact .inr ⟨error, first, rfl⟩
  · rintro (⟨value, middle, first, last⟩ | ⟨error, first, rfl⟩)
    · exact ⟨_, middle, first, last⟩
    · exact ⟨_, after, first, ends_done_iff.mpr ⟨rfl, rfl⟩⟩

theorem ends_bind_ok_iff {task : Task Result} {next : Result → Task Other}
    {value : Other} :
    (task >>= next).run.Ends responder before (.ok value) after ↔
      ∃ first middle, task.run.Ends responder before (.ok first) middle ∧
        (next first).run.Ends responder middle (.ok value) after := by
  rw [ends_bind_iff]
  simp only [reduceCtorEq, and_false, exists_false, or_false]

theorem ends_bind {task : Task Result} {next : Result → Task Other} {value : Result}
    {result : Except ProvisionError Other}
    (first : task.run.Ends responder before (.ok value) middle)
    (last : (next value).run.Ends responder middle result after) :
    (task >>= next).run.Ends responder before result after :=
  ends_bind_iff.mpr (.inl ⟨value, middle, first, last⟩)

theorem ends_pure (value : Result) :
    (pure value : Task Result).run.Ends responder before (.ok value) before := rfl

theorem submits_bind {allowed : List Operation → Prop} {task : Task Result}
    {next : Result → Task Other} (first : task.run.Submits allowed)
    (later : ∀ value, (next value).run.Submits allowed) :
    (task >>= next).run.Submits allowed := by
  rw [run_bind]
  apply first.bind
  intro result
  cases result with
  | ok value => exact later value
  | error error => trivial

/-- Whatever the store replies, only such values are given. -/
def Gives (post : Result → Prop) (task : Task Result) : Prop :=
  task.run.Yields fun result => ∀ value, result = .ok value → post value

theorem gives_pure {post : Result → Prop} {value : Result} (holds : post value) :
    (pure value : Task Result).Gives post := by
  rintro _ ⟨⟩
  exact holds

theorem gives_bind {post : Other → Prop} {task : Task Result} {next : Result → Task Other}
    (later : ∀ value, (next value).Gives post) : (task >>= next).Gives post := by
  rw [Gives, run_bind]
  apply yields_bind
  intro result
  cases result with
  | ok value => exact later value
  | error error => exact fun _ impossible => by cases impossible

theorem submits_bind_of_gives {allowed : List Operation → Prop} {post : Result → Prop}
    {task : Task Result} {next : Result → Task Other} (first : task.run.Submits allowed)
    (gives : task.Gives post)
    (later : ∀ value, post value → (next value).run.Submits allowed) :
    (task >>= next).run.Submits allowed := by
  rw [run_bind]
  apply first.bind_of_yields gives
  intro result holds
  cases result with
  | ok value => exact later value (holds value rfl)
  | error error => trivial

theorem ends_mapM {Item : Type} {step : Item → Task Result} {items : List Item}
    {results : List Result}
    (each : List.Forall₂ (fun item result =>
      (step item).run.Ends responder before (.ok result) before) items results) :
    (items.mapM step).run.Ends responder before (.ok results) before := by
  induction each with
  | nil => exact ends_pure []
  | cons first _ induction =>
      rw [List.mapM_cons]
      exact ends_bind first (ends_bind induction (ends_pure _))

/-! ## Single steps -/

theorem ends_done_ok_iff {result : Except ProvisionError Result} {value : Result} :
    (ExceptT.mk (.done result) : Task Result).run.Ends responder before
      (.ok value) after ↔
      result = .ok value ∧ after = before := by
  rw [ExceptT.run_mk, ends_done_iff, eq_comm]

theorem ends_done {result : Except ProvisionError Result} {value : Result}
    (succeeds : result = .ok value) :
    (ExceptT.mk (.done result) : Task Result).run.Ends responder before
      (.ok value) before :=
  ends_done_ok_iff.mpr ⟨succeeds, rfl⟩

theorem ends_ofCodec_ok_iff {result : Except CodecError Result} {value : Result} :
    (Task.ofCodec result).run.Ends responder before (.ok value) after ↔
      result = .ok value ∧ after = before := by
  rw [Task.ofCodec, ends_done_ok_iff, Results.mapError_eq_ok_iff]

theorem ends_ofCodec {result : Except CodecError Result} {value : Result}
    (succeeds : result = .ok value) :
    (Task.ofCodec result).run.Ends responder before (.ok value) before :=
  ends_ofCodec_ok_iff.mpr ⟨succeeds, rfl⟩

theorem ends_require_ok_iff {value : Option Result} {error : ProvisionError}
    {given : Result} :
    (Task.require value error).run.Ends responder before (.ok given) after ↔
      value = some given ∧ after = before := by
  unfold Task.require
  rw [ends_done_ok_iff]
  cases value <;> simp

theorem ends_require_some (value : Result) (error : ProvisionError) :
    (Task.require (some value) error).run.Ends responder before (.ok value) before := rfl

theorem ends_query_reply {object : String} {template : StoreObject} {reply : ObjectsReply}
    (answered : responder.query template before = (reply, after)) :
    (Task.query object template).run.Ends responder before
      (reply.mapError fun cause => .queryFailed object cause.message) after := by
  change Exchange.run responder (.query template fun reply =>
    .done (reply.mapError fun cause =>
      ProvisionError.queryFailed object cause.message)) before = _
  simp [Exchange.run, answered]

theorem ends_query {object : String} {template : StoreObject} {answers : List StoreObject}
    (answered : responder.query template before = (.ok answers, after)) :
    (Task.query object template).run.Ends responder before (.ok answers) after :=
  ends_query_reply answered

theorem ends_transact_iff {object : String} {batch : List Operation}
    {result : Except ProvisionError (List StoreObject)} :
    (Task.transact object batch).run.Ends responder before result after ↔
      ∃ reply, responder.transact batch before = (reply, after) ∧
        result = reply.mapError fun cause => .transactionFailed object cause.message := by
  change Exchange.run responder (.transact batch fun reply =>
    .done (reply.mapError fun cause =>
      ProvisionError.transactionFailed object cause.message)) before = _ ↔ _
  rw [Exchange.run]
  cases responder.transact batch before with
  | mk reply left =>
      simp only [Exchange.run, Prod.mk.injEq, Option.some.injEq]
      constructor
      · rintro ⟨rfl, rfl⟩
        exact ⟨reply, ⟨rfl, rfl⟩, rfl⟩
      · rintro ⟨_, ⟨rfl, rfl⟩, rfl⟩
        exact ⟨rfl, rfl⟩

theorem ends_transact_ok_iff {object : String} {batch : List Operation}
    {answers : List StoreObject} :
    (Task.transact object batch).run.Ends responder before (.ok answers) after ↔
      responder.transact batch before = (.ok answers, after) := by
  rw [ends_transact_iff]
  constructor
  · rintro ⟨reply, replied, same⟩
    cases reply with
    | ok given =>
        cases same
        exact replied
    | error cause => cases same
  · intro accepted
    exact ⟨_, accepted, rfl⟩

theorem ends_transact {object : String} {batch : List Operation}
    {answers : List StoreObject}
    (accepted : responder.transact batch before = (.ok answers, after)) :
    (Task.transact object batch).run.Ends responder before (.ok answers) after :=
  ends_transact_ok_iff.mpr accepted

theorem ends_transact_refused {object : String} {batch : List Operation}
    {error : StoreError}
    (refused : responder.transact batch before = (.error error, after)) :
    (Task.transact object batch).run.Ends responder before
      (.error (.transactionFailed object error.message)) after :=
  ends_transact_iff.mpr ⟨_, refused, rfl⟩

theorem submits_transact {allowed : List Operation → Prop} {object : String}
    {batch : List Operation} (isAllowed : allowed batch) :
    (Task.transact object batch).run.Submits allowed := ⟨isAllowed, fun _ => trivial⟩

/-! ## Records -/

theorem ends_record {task : Task Result} {target : String}
    {result : Except ProvisionError Result}
    (ends : task.run.Ends responder before result after) :
    (task.record target).Ends responder before (.ofResult target result) after :=
  ends.bind rfl

end Task

end SwitchQos
