import Mathlib.Data.Set.Insert
import SwitchQos.Store.Exchange

namespace SwitchQos

/-! How runs of exchanges compose. `Ends` says how a run comes to an end, `Reaches`
what is left of it on the way, and `Submits` which batches a client may ever submit,
whatever the store replies. -/

namespace Exchange

variable {State Result Other : Type} {responder : Responder State}

/-! ## The end of a run -/

/-- Run from `before` the exchange brings the result and leaves `after`. -/
def Ends (responder : Responder State) (exchange : Exchange Result) (before : State)
    (result : Result) (after : State) : Prop :=
  exchange.run responder before = (some result, after)

@[simp] theorem ends_done_iff {given result : Result} {before after : State} :
    (done given).Ends responder before result after ↔ result = given ∧
    after = before := by
  simp [Ends, run, eq_comm]

theorem ends_bind_iff {exchange : Exchange Result} {next : Result → Exchange Other}
    {before after : State} {result : Other} :
    (exchange.bind next).Ends responder before result after ↔
      ∃ value middle, exchange.Ends responder before value middle ∧
        (next value).Ends responder middle result after := by
  simp only [Ends, run_bind]
  cases outcome : exchange.run responder before with
  | mk value middle =>
      cases value with
      | none => simp
      | some value =>
          constructor
          · intro last
            exact ⟨value, middle, rfl, last⟩
          · rintro ⟨other, otherMiddle, same, last⟩
            cases same
            exact last

theorem exists_ends_of_run {exchange : Exchange Result} {before : State} {result : Result}
    (ran : (exchange.run responder before).1 = some result) :
    ∃ after, exchange.Ends responder before result after :=
  ⟨_, Prod.ext ran rfl⟩

theorem Ends.unique {exchange : Exchange Result} {before after other : State}
    {result value : Result} (ends : exchange.Ends responder before result after)
    (endsToo : exchange.Ends responder before value other) : value = result ∧
    other = after := by
  have same := ends.symm.trans endsToo
  rw [Prod.mk.injEq, Option.some.injEq] at same
  exact ⟨same.1.symm, same.2.symm⟩

theorem Ends.bind {exchange : Exchange Result} {next : Result → Exchange Other}
    {before middle after : State} {value : Result} {result : Other}
    (first : exchange.Ends responder before value middle)
    (last : (next value).Ends responder middle result after) :
    (exchange.bind next).Ends responder before result after :=
  ends_bind_iff.mpr ⟨value, middle, first, last⟩

theorem Ends.map {exchange : Exchange Result} {before after : State} {value : Result}
    (ends : exchange.Ends responder before value after) (change : Result → Other) :
    (exchange.bind fun result => done (change result)).Ends responder before
      (change value) after :=
  ends.bind (ends_done_iff.mpr ⟨rfl, rfl⟩)

theorem Ends.collect_cons {Item : Type}
    {step : Item → Exchange (List Result)} {item : Item}
    {rest : List Item} {before middle after : State} {results others : List Result}
    (first : (step item).Ends responder before results middle)
    (last : (collect rest step).Ends responder middle others after) :
    (collect (item :: rest) step).Ends responder before (results ++ others) after :=
  first.bind (last.map fun others => results ++ others)

/-- Items that each end well, and do their share of some work, end well together and
do it all. `Holds` says of a state how much has been done. -/
theorem ends_collect {Item Work : Type} {Holds : Set Work → State → Prop}
    {work : Item → Set Work} {step : Item → Exchange (List Result)}
    {results : Item → List Result} {items : List Item}
    (each : ∀ item ∈ items, ∀ done before, Holds done before →
      ∃ after, (step item).Ends responder before (results item) after ∧
        Holds (done ∪ work item) after)
    {done : Set Work} {before : State} (holds : Holds done before) :
    ∃ after, (collect items step).Ends responder before (items.flatMap results) after ∧
      Holds (done ∪ {part | ∃ item ∈ items, part ∈ work item}) after := by
  induction items generalizing done before with
  | nil => exact ⟨before, ends_done_iff.mpr ⟨rfl, rfl⟩, by simpa using holds⟩
  | cons item rest induction =>
      rcases each item List.mem_cons_self done before holds with
        ⟨middle, first, middleHolds⟩
      rcases induction (fun other member =>
        each other (List.mem_cons_of_mem _ member)) middleHolds
          with ⟨after, others, afterHolds⟩
      refine ⟨after, first.collect_cons others, ?_⟩
      have all : done ∪ work item ∪ {part | ∃ item ∈ rest, part ∈ work item} =
          done ∪ {part | ∃ other ∈ item :: rest, part ∈ work other} := by
        ext part
        simp [or_assoc]
      rwa [all] at afterHolds

/-! ## On the way -/

/-- Run from `before` the exchange comes to `later`, where `rest` is left to be run. -/
inductive Reaches (responder : Responder State) :
    Exchange Result → State → Exchange Result → State → Prop
  | here {exchange : Exchange Result} {state : State} :
      Reaches responder exchange state exchange state
  | query {template : StoreObject} {next : ObjectsReply → Exchange Result}
      {before later : State} {rest : Exchange Result}
      (reaches : Reaches responder (next (responder.query template before).1)
        (responder.query template before).2 rest later) :
      Reaches responder (.query template next) before rest later
  | transact {batch : List Operation} {next : ObjectsReply → Exchange Result}
      {before later : State} {rest : Exchange Result}
      (reaches : Reaches responder (next (responder.transact batch before).1)
        (responder.transact batch before).2 rest later) :
      Reaches responder (.transact batch next) before rest later
  | listPorts {interfaceClass : InterfaceClass} {next : PortsReply → Exchange Result}
      {before later : State} {rest : Exchange Result}
      (reaches : Reaches responder (next (responder.listPorts interfaceClass before).1)
        (responder.listPorts interfaceClass before).2 rest later) :
      Reaches responder (.listPorts interfaceClass next) before rest later

theorem Reaches.trans {first second third : Exchange Result} {before middle after : State}
    (left : Reaches responder first before second middle)
    (right : Reaches responder second middle third after) :
    Reaches responder first before third after := by
  induction left with
  | here => exact right
  | query _ induction => exact .query (induction right)
  | transact _ induction => exact .transact (induction right)
  | listPorts _ induction => exact .listPorts (induction right)

theorem Ends.reaches {exchange : Exchange Result} {before after : State} {result : Result}
    (ends : exchange.Ends responder before result after) :
    Reaches responder exchange before (.done result) after := by
  induction exchange generalizing before with
  | done given =>
      rcases ends_done_iff.mp ends with ⟨rfl, rfl⟩
      exact .here
  | stalled => cases ends
  | query template next induction => exact .query (induction _ ends)
  | transact batch next induction => exact .transact (induction _ ends)
  | listPorts interfaceClass next induction => exact .listPorts (induction _ ends)

theorem Reaches.ends {exchange rest : Exchange Result} {before later after : State}
    {result : Result} (reaches : Reaches responder exchange before rest later)
    (ends : rest.Ends responder later result after) :
    exchange.Ends responder before result after := by
  induction reaches with
  | here => exact ends
  | query _ induction => exact induction ends
  | transact _ induction => exact induction ends
  | listPorts _ induction => exact induction ends

theorem Reaches.bind {exchange rest : Exchange Result} {before later : State}
    (reaches : Reaches responder exchange before rest later)
    (next : Result → Exchange Other) :
    Reaches responder (exchange.bind next) before (rest.bind next) later := by
  induction reaches with
  | here => exact .here
  | query _ induction => exact .query induction
  | transact _ induction => exact .transact induction
  | listPorts _ induction => exact .listPorts induction

/-! ## Parts of a run -/

def Includes (responder : Responder State) (exchange : Exchange Result) (before : State)
    (part : Exchange Other) (start : State) : Prop :=
  ∃ next, Reaches responder exchange before (part.bind next) start

theorem includes_self (exchange : Exchange Result) (before : State) :
    Includes responder exchange before exchange before :=
  ⟨.done, by rw [bind_done]; exact .here⟩

section Parts

variable {Whole : Type} {whole : Exchange Whole} {exchange : Exchange Result}
  {next : Result → Exchange Other} {before start : State}

theorem Includes.part
    (includes : Includes responder whole before (exchange.bind next) start) :
    Includes responder whole before exchange start := by
  rcases includes with ⟨rest, reaches⟩
  rw [bind_assoc] at reaches
  exact ⟨_, reaches⟩

theorem Includes.rest {value : Result} {middle : State}
    (includes : Includes responder whole before (exchange.bind next) start)
    (ends : exchange.Ends responder start value middle) :
    Includes responder whole before (next value) middle := by
  rcases includes with ⟨rest, reaches⟩
  rw [bind_assoc] at reaches
  exact ⟨rest, reaches.trans (ends.reaches.bind _)⟩

end Parts

/-! ## Submitted batches -/

def SubmitsAt (responder : Responder State) (exchange : Exchange Result) (before : State)
    (batch : List Operation) (state : State) : Prop :=
  ∃ next, Reaches responder exchange before (.transact batch next) state

/-- A batch is submitted by the first part of an exchange or by what follows it. -/
theorem Reaches.transact_of_bind {exchange : Exchange Result}
    {next : Result → Exchange Other} {before state : State} {batch : List Operation}
    {later : ObjectsReply → Exchange Other}
    (reaches : Reaches responder (exchange.bind next) before
      (.transact batch later) state) :
    (∃ own, Reaches responder exchange before (.transact batch own) state ∧
        later = fun answer => (own answer).bind next) ∨
      ∃ value middle, exchange.Ends responder before value middle ∧
        Reaches responder (next value) middle (.transact batch later) state := by
  induction exchange generalizing before with
  | done value => exact .inr ⟨value, before, ends_done_iff.mpr ⟨rfl, rfl⟩, reaches⟩
  | stalled => cases reaches
  | query template reply induction =>
      cases reaches with
      | query reaches =>
          rcases induction _ reaches with
            ⟨own, ownReaches, same⟩ | ⟨value, middle, ends, rest⟩
          · exact .inl ⟨own, .query ownReaches, same⟩
          · exact .inr ⟨value, middle, ends, rest⟩
  | listPorts interfaceClass reply induction =>
      cases reaches with
      | listPorts reaches =>
          rcases induction _ reaches with
            ⟨own, ownReaches, same⟩ | ⟨value, middle, ends, rest⟩
          · exact .inl ⟨own, .listPorts ownReaches, same⟩
          · exact .inr ⟨value, middle, ends, rest⟩
  | transact submitted reply induction =>
      cases reaches with
      | here => exact .inl ⟨reply, .here, rfl⟩
      | transact reaches =>
          rcases induction _ reaches with
            ⟨own, ownReaches, same⟩ | ⟨value, middle, ends, rest⟩
          · exact .inl ⟨own, .transact ownReaches, same⟩
          · exact .inr ⟨value, middle, ends, rest⟩

/-- Run from `before` the exchange submits the batch, in `state` and to go on with `next`,
for a part of it that has begun in `start`. -/
def SubmitsFor (responder : Responder State) (exchange : Exchange Result) (before : State)
    (part : Exchange Other) (start : State) (batch : List Operation) (state : State)
    (next : ObjectsReply → Exchange Result) : Prop :=
  ∃ last reply, Reaches responder exchange before (part.bind last) start ∧
    Reaches responder part start (.transact batch reply) state ∧
    next = fun answer => (reply answer).bind last

section SubmitsFor

variable {Whole : Type} {whole : Exchange Whole} {before start state : State}
  {batch : List Operation} {next : ObjectsReply → Exchange Whole}

theorem submitsFor_self
    (reaches : Reaches responder whole before (.transact batch next) state) :
    whole.SubmitsFor responder before whole before batch state next := by
  refine ⟨.done, next, ?_, reaches, ?_⟩
  · rw [bind_done]
    exact .here
  · simp only [bind_done]

theorem SubmitsFor.includes {part : Exchange Result}
    (submitted : whole.SubmitsFor responder before part start batch state next) :
    whole.Includes responder before part start := by
  rcases submitted with ⟨last, _, reaches, -, -⟩
  exact ⟨last, reaches⟩

theorem SubmitsFor.submitsAt {part : Exchange Result}
    (submitted : whole.SubmitsFor responder before part start batch state next) :
    part.SubmitsAt responder start batch state := by
  rcases submitted with ⟨_, reply, -, submits, -⟩
  exact ⟨reply, submits⟩

theorem not_submitsFor_done {result : Result} :
    ¬whole.SubmitsFor responder before (done result) start batch state next := by
  intro submitted
  rcases submitted.submitsAt with ⟨_, none⟩
  cases none

theorem not_submitsFor_askPorts {interfaceClass : InterfaceClass} :
    ¬whole.SubmitsFor responder before (askPorts interfaceClass) start batch
      state next := by
  intro submitted
  rcases submitted.submitsAt with ⟨_, reaches⟩
  cases reaches with
  | listPorts none => cases none

theorem SubmitsFor.of_bind {exchange : Exchange Result} {more : Result → Exchange Other}
    (submitted : whole.SubmitsFor responder before (exchange.bind more) start
      batch state next) :
    whole.SubmitsFor responder before exchange start batch state next ∨
      ∃ value middle, exchange.Ends responder start value middle ∧
        whole.SubmitsFor responder before (more value) middle batch state next := by
  rcases submitted with ⟨last, reply, reaches, submits, same⟩
  rw [bind_assoc] at reaches
  rcases submits.transact_of_bind with
    ⟨own, ownSubmits, rfl⟩ | ⟨value, middle, ends, later⟩
  · simp only [bind_assoc] at same
    exact .inl ⟨_, own, reaches, ownSubmits, same⟩
  · exact .inr ⟨value, middle, ends, last, reply,
      reaches.trans (ends.reaches.bind _), later, same⟩

theorem SubmitsFor.of_map {exchange : Exchange Result} {change : Result → Other}
    (submitted : whole.SubmitsFor responder before
      (exchange.bind fun result => done (change result)) start batch state next) :
    whole.SubmitsFor responder before exchange start batch state next := by
  rcases submitted.of_bind with own | ⟨_, _, -, none⟩
  · exact own
  · exact absurd none not_submitsFor_done

theorem SubmitsFor.of_collect {Item : Type} {step : Item → Exchange (List Result)}
    {items : List Item}
    (submitted : whole.SubmitsFor responder before (collect items step) start
      batch state next) :
    ∃ item ∈ items, ∃ begun,
      whole.SubmitsFor responder before (step item) begun batch state next := by
  induction items generalizing start with
  | nil => exact absurd submitted not_submitsFor_done
  | cons item rest induction =>
      rcases submitted.of_bind with own | ⟨results, middle, -, others⟩
      · exact ⟨item, List.mem_cons_self, start, own⟩
      · rcases induction others.of_map with ⟨other, member, begun, submits⟩
        exact ⟨other, List.mem_cons_of_mem _ member, begun, submits⟩

theorem SubmitsFor.within {part : Exchange Result}
    {inner : Exchange Other} {begun : State} {last : Result → Exchange Whole}
    {reply : ObjectsReply → Exchange Result}
    (submitted : part.SubmitsFor responder start inner begun batch state reply)
    (reaches : Reaches responder whole before (part.bind last) start) :
    whole.SubmitsFor responder before inner begun batch state
      fun answer => (reply answer).bind last := by
  rcases submitted with ⟨more, own, partReaches, submits, rfl⟩
  have wholeReaches := reaches.trans (partReaches.bind last)
  rw [bind_assoc] at wholeReaches
  exact ⟨_, own, wholeReaches, submits, by simp only [bind_assoc]⟩

end SubmitsFor

/-- Whatever the store replies, only such batches are submitted. -/
def Submits (allowed : List Operation → Prop) : Exchange Result → Prop
  | .done _ => True
  | .stalled => True
  | .query _ next => ∀ reply, Submits allowed (next reply)
  | .transact batch next => allowed batch ∧ ∀ reply, Submits allowed (next reply)
  | .listPorts _ next => ∀ reply, Submits allowed (next reply)

def Yields (post : Result → Prop) : Exchange Result → Prop
  | .done result => post result
  | .stalled => True
  | .query _ next => ∀ reply, Yields post (next reply)
  | .transact _ next => ∀ reply, Yields post (next reply)
  | .listPorts _ next => ∀ reply, Yields post (next reply)

theorem yields_bind {post : Other → Prop} {exchange : Exchange Result}
    {next : Result → Exchange Other} (later : ∀ value, (next value).Yields post) :
    (exchange.bind next).Yields post := by
  induction exchange with
  | done value => exact later value
  | stalled => trivial
  | query _ _ induction | transact _ _ induction | listPorts _ _ induction =>
      exact fun reply => induction reply

theorem Yields.of_ends {post : Result → Prop} {exchange : Exchange Result}
    {before after : State} {result : Result} (yields : exchange.Yields post)
    (ends : exchange.Ends responder before result after) : post result := by
  induction exchange generalizing before with
  | done given =>
      rw [(ends_done_iff.mp ends).1]
      exact yields
  | stalled => cases ends
  | query _ _ induction | transact _ _ induction | listPorts _ _ induction =>
      exact induction _ (yields _) ends

section Submits

variable {allowed : List Operation → Prop}

theorem Submits.bind_of_yields {post : Result → Prop} {exchange : Exchange Result}
    {next : Result → Exchange Other} (first : exchange.Submits allowed)
    (yields : exchange.Yields post)
    (later : ∀ value, post value → (next value).Submits allowed) :
    (exchange.bind next).Submits allowed := by
  induction exchange with
  | done value => exact later value yields
  | stalled => trivial
  | query _ _ induction | listPorts _ _ induction =>
      exact fun reply => induction reply (first reply) (yields reply)
  | transact batch reply induction =>
      exact ⟨first.1, fun reply => induction reply (first.2 reply) (yields reply)⟩

theorem Submits.bind {exchange : Exchange Result} {next : Result → Exchange Other}
    (first : exchange.Submits allowed) (later : ∀ value, (next value).Submits allowed) :
    (exchange.bind next).Submits allowed := by
  have yields : exchange.Yields fun _ => True := by
    clear first
    induction exchange with
    | done | stalled => trivial
    | query _ _ induction | transact _ _ induction | listPorts _ _ induction =>
        exact induction
  exact first.bind_of_yields yields fun value _ => later value

theorem Submits.mono {other : List Operation → Prop} {exchange : Exchange Result}
    (weaker : ∀ batch, allowed batch → other batch) (submits : exchange.Submits allowed) :
    exchange.Submits other := by
  induction exchange with
  | done | stalled => trivial
  | query _ _ induction | listPorts _ _ induction =>
      exact fun reply => induction _ (submits reply)
  | transact batch reply induction =>
      exact ⟨weaker _ submits.1, fun reply => induction _ (submits.2 reply)⟩

theorem submits_collect {Item : Type} {step : Item → Exchange (List Result)}
    {items : List Item} (each : ∀ item ∈ items, (step item).Submits allowed) :
    (collect items step).Submits allowed := by
  induction items with
  | nil => trivial
  | cons item rest induction =>
      have others :=
        induction fun other member => each other (List.mem_cons_of_mem _ member)
      exact (each item List.mem_cons_self).bind fun _ => others.bind fun _ => trivial

theorem Submits.of_reaches {exchange rest : Exchange Result} {before later : State}
    (submits : exchange.Submits allowed)
    (reaches : Reaches responder exchange before rest later) : rest.Submits allowed := by
  induction reaches with
  | here => exact submits
  | query _ induction | listPorts _ induction => exact induction (submits _)
  | transact _ induction => exact induction (submits.2 _)

theorem Submits.allowed_of_submitsAt {exchange : Exchange Result} {before state : State}
    {batch : List Operation} (submits : exchange.Submits allowed)
    (submitted : exchange.SubmitsAt responder before batch state) : allowed batch := by
  rcases submitted with ⟨next, reaches⟩
  exact (submits.of_reaches reaches).1

/-- What allowed batches, queries and listings keep holds all along a run. -/
theorem Submits.kept (Kept : State → Prop) {exchange rest : Exchange Result}
    {before later : State} (submits : exchange.Submits allowed)
    (query : ∀ template state, Kept state → Kept (responder.query template state).2)
    (transact : ∀ batch state, allowed batch → Kept state →
      Kept (responder.transact batch state).2)
    (listPorts : ∀ interfaceClass state, Kept state →
      Kept (responder.listPorts interfaceClass state).2)
    (reaches : Reaches responder exchange before rest later) (kept : Kept before) :
    Kept later := by
  induction reaches with
  | here => exact kept
  | query _ induction => exact induction (submits _) (query _ _ kept)
  | transact _ induction => exact induction (submits.2 _) (transact _ _ submits.1 kept)
  | listPorts _ induction => exact induction (submits _) (listPorts _ _ kept)

end Submits

end Exchange

end SwitchQos
