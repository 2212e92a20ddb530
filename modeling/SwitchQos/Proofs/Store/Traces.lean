import SwitchQos.Proofs.Provision.Tasks
import SwitchQos.Proofs.Store.Operations

namespace SwitchQos

/-! What an exchange gets done. A store takes a batch or refuses it, and answers queries
as far as it can, so one exchange has many courses. `Brings` says of all of them which
operations are taken on the way and what result they lead to. -/

/-- How a store may reply, refusals of batches aside. -/
structure Replies where
  answers : StoreObject → ObjectsReply → Prop
  /-- What comes back when a batch is taken. -/
  confirms : List Operation → List StoreObject → Prop

namespace Exchange

variable {Result Other Item : Type} {replies : Replies}

/-- Whichever batches are taken, their operations and the result are such. -/
def Brings (replies : Replies) (post : List Operation → Result → Prop) :
    Exchange Result → Prop
  | .done result => post [] result
  | .stalled => True
  | .query template next => ∀ reply, replies.answers template reply →
      Brings replies post (next reply)
  | .transact batch next =>
      (∀ answers, replies.confirms batch answers →
        Brings replies (fun later => post (batch ++ later)) (next (.ok answers))) ∧
      ∀ cause, Brings replies post (next (.error cause))
  | .listPorts _ next => ∀ reply, Brings replies post (next reply)

section Rules

variable {post : List Operation → Result → Prop} {exchange : Exchange Result}

theorem Brings.mono {other : List Operation → Result → Prop}
    (brings : exchange.Brings replies post)
    (weaker : ∀ operations result, post operations result → other operations result) :
    exchange.Brings replies other := by
  induction exchange generalizing post other with
  | done result => exact weaker [] result brings
  | stalled => trivial
  | query template next induction =>
      exact fun reply answered => induction reply (brings reply answered) weaker
  | listPorts interfaceClass next induction =>
      exact fun reply => induction reply (brings reply) weaker
  | transact batch next induction =>
      exact ⟨fun answers confirmed =>
          induction _ (brings.1 answers confirmed) fun later => weaker (batch ++ later),
        fun cause => induction _ (brings.2 cause) weaker⟩

theorem Brings.bind {next : Result → Exchange Other}
    {last : List Operation → Other → Prop} (brings : exchange.Brings replies post)
    (later : ∀ operations value, post operations value →
      (next value).Brings replies fun others => last (operations ++ others)) :
    (exchange.bind next).Brings replies last := by
  -- The conditions are general, as each batch that is taken comes in front of
  -- what follows it.
  induction exchange generalizing post last with
  | done value => exact later [] value brings
  | stalled => trivial
  | query template reply induction =>
      exact fun answer answered => induction answer (brings answer answered) later
  | listPorts interfaceClass reply induction =>
      exact fun answer => induction answer (brings answer) later
  | transact batch reply induction =>
      refine ⟨fun answers confirmed => induction _ (brings.1 answers confirmed) ?_,
        fun cause => induction _ (brings.2 cause) later⟩
      intro operations value holds
      simpa only [List.append_assoc] using later (batch ++ operations) value holds

theorem Brings.map {last : List Operation → Other → Prop} (change : Result → Other)
    (brings : exchange.Brings replies fun operations result =>
      last operations (change result)) :
    (exchange.bind fun result => .done (change result)).Brings replies last :=
  brings.bind fun operations value holds => by
    simpa only [Brings, List.append_nil] using holds

end Rules

theorem brings_collect {Due Entry : Type} {step : Item → Exchange (List Result)}
    {Leads : Due → Entry → Prop} {made : Entry → List Operation} {shown : Entry → Result}
    {items : List Item} {dues : List Due}
    (each : List.Forall₂ (fun item due =>
      (step item).Brings replies fun operations results =>
      ∃ entry, Leads due entry ∧ operations = made entry ∧
      results = [shown entry]) items dues) :
    (collect items step).Brings replies fun operations results =>
      ∃ entries, List.Forall₂ Leads dues entries ∧ operations = entries.flatMap made ∧
        results = entries.map shown := by
  induction each with
  | nil => exact ⟨[], .nil, rfl, rfl⟩
  | cons first _ induction =>
      refine first.bind ?_
      rintro _ _ ⟨entry, leads, rfl, rfl⟩
      refine Brings.map (_ ++ ·) (induction.mono ?_)
      rintro _ _ ⟨entries, related, rfl, rfl⟩
      exact ⟨entry :: entries, .cons leads related, rfl, rfl⟩

end Exchange

/-! ## Tasks -/

namespace Task

open Exchange

variable {Result Other Item : Type} {replies : Replies}

def Looks (replies : Replies) (post : Result → Prop) (task : Task Result) : Prop :=
  task.run.Brings replies fun operations result =>
    operations = [] ∧ ∀ value, result = .ok value → post value

theorem looks_done {post : Result → Prop} {result : Except ProvisionError Result}
    (holds : ∀ value, result = .ok value → post value) :
    Looks replies post (ExceptT.mk (.done result)) := ⟨rfl, holds⟩

theorem Looks.mono {post other : Result → Prop} {task : Task Result}
    (looks : task.Looks replies post) (weaker : ∀ value, post value → other value) :
    task.Looks replies other :=
  Brings.mono looks fun _ _ holds =>
    ⟨holds.1, fun value same => weaker value (holds.2 value same)⟩

theorem Looks.brings_bind {post : Result → Prop} {task : Task Result}
    {next : Result → Task Other}
    {last : List Operation → Except ProvisionError Other → Prop}
    (looks : task.Looks replies post) (fails : ∀ error, last [] (.error error))
    (later : ∀ value, post value → (next value).run.Brings replies last) :
    (task >>= next).run.Brings replies last := by
  rw [run_bind]
  refine Brings.bind looks ?_
  rintro operations result ⟨rfl, holds⟩
  cases result with
  | ok value => exact later value (holds value rfl)
  | error error => exact fails error

theorem Looks.bind {post : Result → Prop} {last : Other → Prop} {task : Task Result}
    {next : Result → Task Other} (looks : task.Looks replies post)
    (later : ∀ value, post value → (next value).Looks replies last) :
    (task >>= next).Looks replies last :=
  looks.brings_bind (fun error => ⟨rfl, fun _ impossible => by cases impossible⟩) later

theorem looks_ofCodec {result : Except CodecError Result} :
    (Task.ofCodec result).Looks replies fun value => result = .ok value :=
  looks_done fun _ same => Results.mapError_eq_ok_iff.mp same

theorem looks_require {value : Option Result} {error : ProvisionError} :
    (Task.require value error).Looks replies fun given => value = some given := by
  refine looks_done fun given same => ?_
  cases value with
  | none => cases same
  | some value =>
      cases same
      rfl

theorem looks_query {object : String} {template : StoreObject} :
    (Task.query object template).Looks replies fun answers =>
      replies.answers template (.ok answers) := by
  intro reply answered
  refine ⟨rfl, fun answers same => ?_⟩
  rwa [Results.mapError_eq_ok_iff.mp same] at answered

theorem looks_mapM {step : Item → Task Result} {Finds : Item → Result → Prop}
    {items : List Item} (each : ∀ item ∈ items, (step item).Looks replies (Finds item)) :
    (items.mapM step).Looks replies (List.Forall₂ Finds items) := by
  induction items with
  | nil => exact looks_done fun _ same => by cases same; exact .nil
  | cons item rest induction =>
      rw [List.mapM_cons]
      have others :=
        induction fun other member => each other (List.mem_cons_of_mem _ member)
      refine (each item List.mem_cons_self).bind fun first isFirst =>
        others.bind fun later areLater => looks_done fun _ same => ?_
      cases same
      exact .cons isFirst areLater

end Task

/-! ## Memory -/

namespace Memory

open Exchange

variable {memory : Memory}

theorem log_query {template : StoreObject} :
    (memory.query template).2.log = memory.log := by
  rw [query]
  split
  · rfl
  · split <;> rfl

theorem log_listPorts {interfaceClass : InterfaceClass} :
    (memory.listPorts interfaceClass).2.log = memory.log := by
  cases interfaceClass <;> rfl

/-- The log grows by operations that may be submitted. -/
theorem logs_of_submits {Result : Type} {exchange rest : Exchange Result}
    {allowed : Operation → Prop} {before later : Memory}
    (submits : exchange.Submits fun batch => ∀ operation ∈ batch, allowed operation)
    (reaches : Reaches responder exchange before rest later) :
    ∃ operations, later.log = before.log ++ operations ∧
      ∀ operation ∈ operations, allowed operation := by
  refine submits.kept (fun memory : Memory =>
    ∃ operations, memory.log = before.log ++ operations ∧
    ∀ operation ∈ operations, allowed operation) (fun template memory kept => ?_)
    (fun batch memory isAllowed kept => ?_) (fun interfaceClass memory kept => ?_) reaches
    ⟨[], (List.append_nil _).symm, by simp⟩
  · exact (@log_query memory template).symm ▸ kept
  · change ∃ operations, (memory.transact batch).2.log = before.log ++ operations ∧ _
    rcases kept with ⟨operations, log, areAllowed⟩
    cases performed : memory.contents.performAll memory.rules batch with
    | error reason =>
        rw [transact_of_error performed]
        exact ⟨operations, log, areAllowed⟩
    | ok outcome =>
        rw [transact_of_ok performed]
        refine ⟨operations ++ batch, ?_,
          List.forall_mem_append.mpr ⟨areAllowed, isAllowed⟩⟩
        rw [log, List.append_assoc]
  · exact (@log_listPorts memory interfaceClass).symm ▸ kept

/-- The log grows by what is taken. How the store replies may depend on what it has, as
long as all that is submitted keeps it so. -/
theorem brings_of_ends {Result : Type} {exchange : Exchange Result}
    {before after : Memory} {result : Result} {replies : Replies}
    {post : List Operation → Result → Prop} {allowed : List Operation → Prop}
    {Kept : Contents → Prop} (brings : exchange.Brings replies post)
    (submits : exchange.Submits allowed)
    (answers : ∀ template (memory : Memory), Kept memory.contents →
      replies.answers template (memory.query template).1)
    (confirms : ∀ (memory : Memory) batch given contents, Kept memory.contents →
      memory.contents.performAll memory.rules batch = .ok (given, contents) →
      replies.confirms batch given)
    (keeps : ∀ batch, allowed batch → ∀ operation ∈ batch, Contents.Keeps Kept operation)
    (kept : Kept before.contents) (ends : exchange.Ends responder before result after) :
    ∃ operations, after.log = before.log ++ operations ∧ post operations result ∧
      Kept after.contents := by
  induction exchange generalizing before post with
  | done given =>
      rcases ends_done_iff.mp ends with ⟨rfl, rfl⟩
      exact ⟨[], (List.append_nil _).symm, brings, kept⟩
  | stalled => cases ends
  | query template next induction =>
      have keptAfter : Kept (before.query template).2.contents :=
        contents_query.symm ▸ kept
      rcases induction _ (brings _ (answers template before kept))
          (submits _) keptAfter ends with
        ⟨operations, log, holds⟩
      exact ⟨operations, log.trans (congrArg (· ++ operations) log_query), holds⟩
  | listPorts interfaceClass next induction =>
      have keptAfter : Kept (before.listPorts interfaceClass).2.contents :=
        contents_listPorts.symm ▸ kept
      rcases induction _ (brings _) (submits _) keptAfter ends with
        ⟨operations, log, holds⟩
      exact ⟨operations, log.trans (congrArg (· ++ operations) log_listPorts), holds⟩
  | transact batch next induction =>
      change (next (before.transact batch).1).Ends responder
        (before.transact batch).2 result after
        at ends
      cases performed : before.contents.performAll before.rules batch with
      | error reason =>
          rw [transact_of_error performed] at ends
          exact induction _ (brings.2 _) (submits.2 _) kept ends
      | ok outcome =>
          rcases outcome with ⟨given, contents⟩
          rw [transact_of_ok performed] at ends
          have confirmed :=
            brings.1 given (confirms before batch given contents kept performed)
          have keptAfter :=
            Contents.performAll_keeps (keeps batch submits.1) kept performed
          rcases induction _ confirmed (submits.2 _) keptAfter ends with
            ⟨operations, log, holds⟩
          exact ⟨batch ++ operations, log.trans (List.append_assoc _ _ _), holds⟩

end Memory

end SwitchQos
