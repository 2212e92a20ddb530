import SwitchQos.Store.Request

namespace SwitchQos

/-! An exchange is a conversation with a store: it asks one question at a time
and continues with the reply, whatever that is. What a client does under every
possible behaviour of the store is therefore one value, and a particular store is
a way to run it. A client that polls gives up after a stated number of polls; the
exchange then has stalled and brings no result. -/

inductive Exchange (Result : Type) where
  | done (result : Result)
  | stalled
  | query (template : StoreObject) (next : ObjectsReply → Exchange Result)
  | transact (batch : List Operation) (next : ObjectsReply → Exchange Result)
  | listPorts (interfaceClass : InterfaceClass) (next : PortsReply → Exchange Result)

namespace Exchange

variable {Result Other : Type}

def bind : Exchange Result → (Result → Exchange Other) → Exchange Other
  | .done result, next => next result
  | .stalled, _ => .stalled
  | .query template reply, next => .query template fun answer => (reply answer).bind next
  | .transact batch reply, next => .transact batch fun answer => (reply answer).bind next
  | .listPorts interfaceClass reply, next =>
      .listPorts interfaceClass fun answer => (reply answer).bind next

instance : Monad Exchange where
  pure := .done
  bind := bind

def askObjects (template : StoreObject) : Exchange ObjectsReply := .query template .done

def submit (batch : List Operation) : Exchange ObjectsReply := .transact batch .done

def askPorts (interfaceClass : InterfaceClass) : Exchange PortsReply :=
  .listPorts interfaceClass .done

def collect {Item : Type} (items : List Item) (step : Item → Exchange (List Result)) :
    Exchange (List Result) :=
  match items with
  | [] => .done []
  | item :: rest => do
      let first ← step item
      let others ← collect rest step
      return first ++ others

/-- The interface of a name: front-panel interfaces come before the CPU's, which
are listed only if the name is not among the former. -/
def findPort (name : String) : Exchange (Except StoreError (Option Port)) :=
  ExceptT.run do
    let named (listing : List Port) : Option Port :=
      listing.find? fun port => port.name = name
    match named (← ExceptT.mk (askPorts .frontPanel)) with
    | some port => return some port
    | none => return named (← ExceptT.mk (askPorts .cpu))

/-! ## Laws -/

@[simp] theorem pure_eq_done (result : Result) :
    (pure result : Exchange Result) = .done result :=
  rfl

@[simp] theorem bind_eq_bind (exchange : Exchange Result)
    (next : Result → Exchange Other) :
    exchange >>= next = exchange.bind next := rfl

theorem bind_done (exchange : Exchange Result) : exchange.bind .done = exchange := by
  induction exchange with
  | done | stalled => rfl
  | query _ _ induction | transact _ _ induction | listPorts _ _ induction =>
      simp only [bind, induction]

theorem bind_assoc {Last : Type} (exchange : Exchange Result)
    (next : Result → Exchange Other) (last : Other → Exchange Last) :
    (exchange.bind next).bind last = exchange.bind fun result =>
      (next result).bind last := by
  induction exchange with
  | done | stalled => rfl
  | query _ _ induction | transact _ _ induction | listPorts _ _ induction =>
      simp only [bind, induction]

instance : LawfulMonad Exchange :=
  LawfulMonad.mk' Exchange (fun exchange => bind_done exchange)
    (fun _ _ => rfl) bind_assoc

end Exchange

/-! ## Running an exchange -/

structure Responder (State : Type) where
  query : StoreObject → State → ObjectsReply × State
  transact : List Operation → State → ObjectsReply × State
  listPorts : InterfaceClass → State → PortsReply × State

/-- The result, if the exchange has not stalled, and the state it leaves. -/
def Exchange.run {State Result : Type} (responder : Responder State) :
    Exchange Result → State → Option Result × State
  | .done result, state => (some result, state)
  | .stalled, state => (none, state)
  | .query template next, state =>
      let (answer, state) := responder.query template state
      run responder (next answer) state
  | .transact batch next, state =>
      let (answer, state) := responder.transact batch state
      run responder (next answer) state
  | .listPorts interfaceClass next, state =>
      let (answer, state) := responder.listPorts interfaceClass state
      run responder (next answer) state

theorem Exchange.run_bind {State Result Other : Type} (responder : Responder State)
    (exchange : Exchange Result) (next : Result → Exchange Other) (state : State) :
    (exchange.bind next).run responder state =
      match exchange.run responder state with
      | (some result, state) => (next result).run responder state
      | (none, state) => (none, state) := by
  induction exchange generalizing state with
  | done | stalled => rfl
  | query _ _ induction | transact _ _ induction | listPorts _ _ induction =>
      simp only [bind, run, induction]

end SwitchQos
