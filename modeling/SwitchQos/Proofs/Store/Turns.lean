import SwitchQos.Proofs.Provision.Tasks

namespace SwitchQos

/-! What a client says to a store, turn by turn. `Always` speaks of every way in which a
store may reply: the run comes to an end, and its turns and its result are such. The rules
follow the exchange, so turns of parts come one after the other. -/

inductive Turn where
  | asked (template : StoreObject) (reply : ObjectsReply)
  | submitted (batch : List Operation) (reply : ObjectsReply)
  | listed (interfaceClass : InterfaceClass) (reply : PortsReply)

namespace Turn

def batch? : Turn → Option (List Operation)
  | .submitted batch _ => some batch
  | .asked _ _ | .listed _ _ => none

def submissions (turns : List Turn) : List (List Operation) := turns.filterMap batch?

@[simp] theorem submissions_nil : submissions [] = [] := rfl

@[simp] theorem submissions_append (first second : List Turn) :
    submissions (first ++ second) = submissions first ++ submissions second :=
  List.filterMap_append

@[simp] theorem submissions_asked (template : StoreObject) (reply : ObjectsReply)
    (later : List Turn) : submissions (.asked template reply :: later) =
      submissions later := rfl

@[simp] theorem submissions_submitted (batch : List Operation) (reply : ObjectsReply)
    (later : List Turn) :
    submissions (.submitted batch reply :: later) = batch :: submissions later := rfl

end Turn

/-- What becomes of one item: its turns, and what it comes to. -/
structure Episode (Result : Type) where
  turns : List Turn
  results : List Result

structure LookUp (Result : Type) where
  turns : List Turn
  value : Result

namespace Exchange

variable {State Result Other Item : Type} {responder : Responder State}

def turns (responder : Responder State) : Exchange Result → State → List Turn
  | .done _, _ => []
  | .stalled, _ => []
  | .query template next, state =>
      let (answer, state) := responder.query template state
      .asked template answer :: turns responder (next answer) state
  | .transact batch next, state =>
      let (answer, state) := responder.transact batch state
      .submitted batch answer :: turns responder (next answer) state
  | .listPorts interfaceClass next, state =>
      let (answer, state) := responder.listPorts interfaceClass state
      .listed interfaceClass answer :: turns responder (next answer) state

theorem turns_bind {exchange : Exchange Result} {next : Result → Exchange Other}
    {before middle : State} {value : Result}
    (ends : exchange.Ends responder before value middle) :
    (exchange.bind next).turns responder before =
      exchange.turns responder before ++ (next value).turns responder middle := by
  induction exchange generalizing before with
  | done given =>
      rcases ends_done_iff.mp ends with ⟨rfl, rfl⟩
      rfl
  | stalled => cases ends
  | query _ _ induction | transact _ _ induction | listPorts _ _ induction =>
      exact congrArg (List.cons _) (induction _ ends)

/-- However the store replies, the run comes to an end with such turns and such a
result. -/
def Always (post : List Turn → Result → Prop) : Exchange Result → Prop
  | .done result => post [] result
  | .stalled => False
  | .query template next =>
      ∀ reply, Always (fun later => post (.asked template reply :: later)) (next reply)
  | .transact batch next =>
      ∀ reply, Always (fun later => post (.submitted batch reply :: later)) (next reply)
  | .listPorts interfaceClass next =>
      ∀ reply, Always (fun later =>
        post (.listed interfaceClass reply :: later)) (next reply)

section Rules

variable {post : List Turn → Result → Prop} {exchange : Exchange Result}

theorem Always.exists_ends (always : exchange.Always post) (responder : Responder State)
    (before : State) :
    ∃ result after, exchange.Ends responder before result after ∧
      post (exchange.turns responder before) result := by
  induction exchange generalizing before post with
  | done result => exact ⟨result, before, rfl, always⟩
  | stalled => exact always.elim
  | query _ _ induction | transact _ _ induction | listPorts _ _ induction =>
      exact induction _ (always _) _

theorem Always.mono {weaker : List Turn → Result → Prop} (always : exchange.Always post)
    (implies : ∀ turns result, post turns result → weaker turns result) :
    exchange.Always weaker := by
  induction exchange generalizing post weaker with
  | done result => exact implies [] result always
  | stalled => exact always.elim
  | query _ _ induction | transact _ _ induction | listPorts _ _ induction =>
      exact fun reply => induction reply (always reply) fun _ => implies _

theorem Always.bind {next : Result → Exchange Other} {last : List Turn → Other → Prop}
    (always : exchange.Always post)
    (later : ∀ turns value, post turns value →
      (next value).Always fun others => last (turns ++ others)) :
    (exchange.bind next).Always last := by
  -- The conditions are general, as each turn comes in front of all that follows it.
  induction exchange generalizing post last with
  | done value => exact later [] value always
  | stalled => exact always.elim
  | query _ _ induction | transact _ _ induction | listPorts _ _ induction =>
      exact fun reply => induction reply (always reply) fun _ => later _

theorem Always.map {last : List Turn → Other → Prop} (change : Result → Other)
    (always : exchange.Always fun turns result => last turns (change result)) :
    (exchange.bind fun result => .done (change result)).Always last :=
  always.bind fun turns value holds => by
    simpa only [Always, List.append_nil] using holds

end Rules

/-- Items that each take some course take their courses one after the other. -/
theorem always_collect {step : Item → Exchange (List Result)}
    {Course : Item → List Turn → List Result → Prop} {items : List Item}
    (each : ∀ item ∈ items, (step item).Always (Course item)) :
    (collect items step).Always fun turns results => ∃ episodes : List (Episode Result),
      List.Forall₂ (fun item episode => Course item episode.turns episode.results)
        items episodes ∧
        turns = episodes.flatMap Episode.turns ∧
        results = episodes.flatMap Episode.results := by
  induction items with
  | nil => exact ⟨[], .nil, rfl, rfl⟩
  | cons item rest induction =>
      have others :=
        induction fun other member => each other (List.mem_cons_of_mem _ member)
      refine (each item List.mem_cons_self).bind fun turns results isFirst => ?_
      refine Always.map (results ++ ·) (others.mono ?_)
      rintro _ _ ⟨episodes, related, rfl, rfl⟩
      exact ⟨⟨turns, results⟩ :: episodes, .cons isFirst related, rfl, rfl⟩

end Exchange

/-! ## Tasks -/

namespace Task

open Exchange

variable {Result Other Item : Type}

theorem always_bind {task : Task Result} {next : Result → Task Other}
    {first : List Turn → Except ProvisionError Result → Prop}
    {last : List Turn → Except ProvisionError Other → Prop}
    (always : task.run.Always first)
    (fails : ∀ turns error, first turns (.error error) → last turns (.error error))
    (later : ∀ turns value, first turns (.ok value) →
      (next value).run.Always fun others => last (turns ++ others)) :
    (task >>= next).run.Always last := by
  rw [run_bind]
  refine always.bind fun turns result holds => ?_
  cases result with
  | ok value => exact later turns value holds
  | error error =>
      rw [Always, List.append_nil]
      exact fails turns error holds

theorem always_bind_done {result : Except ProvisionError Result}
    {next : Result → Task Other} {last : List Turn → Except ProvisionError Other → Prop}
    (fails : ∀ error, result = .error error → last [] (.error error))
    (later : ∀ value, result = .ok value → (next value).run.Always last) :
    ((ExceptT.mk (.done result) : Task Result) >>= next).run.Always last := by
  cases result with
  | ok value => exact later value rfl
  | error error => exact fails error rfl

theorem always_bind_ofCodec {result : Except CodecError Result}
    {next : Result → Task Other} {last : List Turn → Except ProvisionError Other → Prop}
    (fails : ∀ cause, result = .error cause → last [] (.error (.codec cause)))
    (later : ∀ value, result = .ok value → (next value).run.Always last) :
    (Task.ofCodec result >>= next).run.Always last := by
  cases result with
  | ok value => exact later value rfl
  | error cause => exact fails cause rfl

theorem always_bind_require {value : Option Result} {missing : ProvisionError}
    {next : Result → Task Other} {last : List Turn → Except ProvisionError Other → Prop}
    (fails : value = none → last [] (.error missing))
    (later : ∀ given, value = some given → (next given).run.Always last) :
    (Task.require value missing >>= next).run.Always last := by
  cases value with
  | some given => exact later given rfl
  | none => exact fails rfl

theorem always_query (object : String) (template : StoreObject) :
    (Task.query object template).run.Always fun turns result => ∃ reply,
      turns = [.asked template reply] ∧
        result = reply.mapError fun cause => .queryFailed object cause.message :=
  fun reply => ⟨reply, rfl, rfl⟩

/-- Look-ups in a row, all of them successful or up to the first that fails. -/
inductive InRow (Finds : Item → LookUp Result → Prop)
    (Fails : Item → List Turn → ProvisionError → Prop) (items : List Item) :
    List Turn → Except ProvisionError (List Result) → Prop
  | found (lookUps : List (LookUp Result)) (finds : List.Forall₂ Finds items lookUps) :
      InRow Finds Fails items (lookUps.flatMap LookUp.turns)
        (.ok (lookUps.map LookUp.value))
  | failed {earlier later : List Item} {item : Item} {turns : List Turn}
      {error : ProvisionError} (lookUps : List (LookUp Result))
      (split : items = earlier ++ item :: later)
      (finds : List.Forall₂ Finds earlier lookUps) (fails : Fails item turns error) :
      InRow Finds Fails items (lookUps.flatMap LookUp.turns ++ turns) (.error error)

def Finding (Finds : Item → LookUp Result → Prop)
    (Fails : Item → List Turn → ProvisionError → Prop) (item : Item) (turns : List Turn) :
    Except ProvisionError Result → Prop
  | .ok value => Finds item ⟨turns, value⟩
  | .error error => Fails item turns error

theorem always_mapM {step : Item → Task Result} {Finds : Item → LookUp Result → Prop}
    {Fails : Item → List Turn → ProvisionError → Prop} {items : List Item}
    (each : ∀ item ∈ items, (step item).run.Always (Finding Finds Fails item)) :
    (items.mapM step).run.Always (InRow Finds Fails items) := by
  induction items with
  | nil => exact (.found [] .nil : InRow Finds Fails [] [] (.ok []))
  | cons item rest induction =>
      have others :=
        induction fun other member => each other (List.mem_cons_of_mem _ member)
      rw [List.mapM_cons]
      refine always_bind (each item List.mem_cons_self) (fun turns error fails => ?_)
        fun turns value isFirst => always_bind others (fun later error row => ?_)
          fun later values row => ?_
      · exact .failed [] (List.nil_append _).symm .nil fails
      · cases row with
        | failed lookUps split finds fails =>
            rw [← List.append_assoc]
            exact .failed (⟨turns, value⟩ :: lookUps) (congrArg (List.cons item) split)
              (.cons isFirst finds) fails
      · cases row with
        | found lookUps finds =>
            change InRow Finds Fails (item :: rest) (turns ++ (_ ++ [])) _
            rw [List.append_nil]
            exact .found (⟨turns, value⟩ :: lookUps) (.cons isFirst finds)

end Task

end SwitchQos
