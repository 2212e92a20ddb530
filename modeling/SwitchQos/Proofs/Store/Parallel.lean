import Mathlib.Data.List.Forall2
import SwitchQos.Proofs.Provision.Tasks

namespace SwitchQos

/-! Exchanges in parallel: they ask the same questions and set objects that are paired,
and they go on in parallel after all replies that agree in what they look at. Run on two
stores that reply so, they end alike. An exchange in parallel with itself neither lists
ports nor stalls, and what it looks at in replies is bounded. -/

inductive Replied (related : List StoreObject → List StoreObject → Prop) :
    ObjectsReply → ObjectsReply → Prop
  | ok {left right : List StoreObject} (answers : related left right) :
      Replied related (.ok left) (.ok right)
  | error (cause : StoreError) : Replied related (.error cause) (.error cause)

theorem Replied.refl {related : List StoreObject → List StoreObject → Prop}
    (reflexive : ∀ answers, related answers answers) (reply : ObjectsReply) :
    Replied related reply reply := by
  cases reply with
  | ok answers => exact .ok (reflexive answers)
  | error cause => exact .error cause

structure Conduct where
  /-- What they may ask for. -/
  Asks : StoreObject → Prop
  /-- Answers that look alike to them. -/
  Alike : StoreObject → StoreObject → Prop
  alike_self : ∀ answer, Alike answer answer
  /-- The pairs of objects that they may set. -/
  Sets : StoreObject → StoreObject → Prop

/-- Two stores in related states reply alike, and their states stay related. -/
structure Conduct.Simulates {Left Right : Type} (conduct : Conduct)
    (leftResponder : Responder Left) (rightResponder : Responder Right)
    (related : Left → Right → Prop) : Prop where
  query : ∀ {template left right}, conduct.Asks template → related left right →
    Replied (List.Forall₂ conduct.Alike) (leftResponder.query template left).1
        (rightResponder.query template right).1 ∧
      related (leftResponder.query template left).2
        (rightResponder.query template right).2
  set : ∀ {object other left right}, conduct.Sets object other → related left right →
    Replied (fun _ _ => True) (leftResponder.transact [⟨.set, object⟩] left).1
        (rightResponder.transact [⟨.set, other⟩] right).1 ∧
      related (leftResponder.transact [⟨.set, object⟩] left).2
        (rightResponder.transact [⟨.set, other⟩] right).2

namespace Exchange

variable {Result Other Item : Type} {conduct : Conduct}

inductive Parallel (conduct : Conduct) : Exchange Result → Exchange Result → Prop
  | done (result : Result) : Parallel conduct (.done result) (.done result)
  | query {template : StoreObject} {left right : ObjectsReply → Exchange Result}
      (asked : conduct.Asks template)
      (later : ∀ reply other, Replied (List.Forall₂ conduct.Alike) reply other →
        Parallel conduct (left reply) (right other)) :
      Parallel conduct (.query template left) (.query template right)
  | set {object other : StoreObject} {left right : ObjectsReply → Exchange Result}
      (paired : conduct.Sets object other)
      (later : ∀ reply other, Replied (fun _ _ => True) reply other →
        Parallel conduct (left reply) (right other)) :
      Parallel conduct (.transact [⟨.set, object⟩] left) (.transact [⟨.set, other⟩] right)

theorem Parallel.bind {left right : Exchange Result}
    {leftNext rightNext : Result → Exchange Other}
    (first : left.Parallel conduct right)
    (later : ∀ result, (leftNext result).Parallel conduct (rightNext result)) :
    (left.bind leftNext).Parallel conduct (right.bind rightNext) := by
  induction first with
  | done result => exact later result
  | query asked _ induction => exact .query asked induction
  | set paired _ induction => exact .set paired induction

theorem parallel_collect {left right : Item → Exchange (List Result)} {items : List Item}
    (each : ∀ item ∈ items, (left item).Parallel conduct (right item)) :
    (collect items left).Parallel conduct (collect items right) := by
  induction items with
  | nil => exact .done []
  | cons item rest induction =>
      have others :=
        induction fun other member => each other (List.mem_cons_of_mem _ member)
      exact (each item List.mem_cons_self).bind fun _ => others.bind fun _ => .done _

theorem Parallel.submits {left right : Exchange Result}
    (parallel : left.Parallel conduct right) :
    left.Submits fun batch => ∃ object other, conduct.Sets object other ∧
      batch = [⟨.set, object⟩] := by
  induction parallel with
  | done => trivial
  | query _ _ induction =>
      have reflexive :=
        fun answers => List.forall₂_same.mpr fun answer (_ : answer ∈ answers) =>
        conduct.alike_self answer
      exact fun reply => induction reply reply (.refl reflexive reply)
  | set paired _ induction =>
      refine ⟨⟨_, _, paired, rfl⟩, fun reply => ?_⟩
      exact induction reply reply (.refl (fun _ => trivial) reply)

theorem Parallel.exists_ends {State : Type} {left right : Exchange Result}
    (parallel : left.Parallel conduct right) (responder : Responder State)
    (before : State) :
    ∃ result after, left.Ends responder before result after := by
  induction parallel generalizing before with
  | done result => exact ⟨result, before, ends_done_iff.mpr ⟨rfl, rfl⟩⟩
  | query _ _ induction =>
      have reflexive :=
        fun answers => List.forall₂_same.mpr fun answer (_ : answer ∈ answers) =>
        conduct.alike_self answer
      exact induction _ _ (.refl reflexive _) _
  | set _ _ induction => exact induction _ _ (.refl (fun _ => trivial) _) _

/-- On stores that reply alike, exchanges in parallel end alike. -/
theorem Parallel.ends {Left Right : Type} {leftResponder : Responder Left}
    {rightResponder : Responder Right} {related : Left → Right → Prop}
    {left right : Exchange Result} {leftState : Left} {rightState : Right}
    (parallel : left.Parallel conduct right)
    (simulates : conduct.Simulates leftResponder rightResponder related)
    (start : related leftState rightState) :
    ∃ result leftAfter rightAfter, left.Ends leftResponder leftState result leftAfter ∧
      right.Ends rightResponder rightState result rightAfter ∧
      related leftAfter rightAfter := by
  induction parallel generalizing leftState rightState with
  | done result =>
      exact ⟨result, _, _, ends_done_iff.mpr ⟨rfl, rfl⟩,
        ends_done_iff.mpr ⟨rfl, rfl⟩, start⟩
  | query asked _ induction =>
      rcases simulates.query asked start with ⟨replied, next⟩
      exact induction _ _ replied next
  | set paired _ induction =>
      rcases simulates.set paired start with ⟨replied, next⟩
      exact induction _ _ replied next

end Exchange

/-! ## Tasks -/

namespace Task

open Exchange

variable {Result Other Item : Type} {conduct : Conduct}

theorem parallel_done (result : Except ProvisionError Result) :
    (ExceptT.mk (.done result) : Task Result).run.Parallel conduct
      (ExceptT.mk (.done result) : Task Result).run := .done result

theorem parallel_bind {left right : Task Result}
    {leftNext rightNext : Result → Task Other}
    (first : left.run.Parallel conduct right.run)
    (later : ∀ value, (leftNext value).run.Parallel conduct (rightNext value).run) :
    (left >>= leftNext).run.Parallel conduct (right >>= rightNext).run := by
  rw [run_bind, run_bind]
  apply first.bind
  intro result
  cases result with
  | ok value => exact later value
  | error error => exact .done _

theorem parallel_ofCodec_bind {result : Except CodecError Result}
    {left right : Result → Task Other}
    (later : ∀ value, result = .ok value →
      (left value).run.Parallel conduct (right value).run) :
    (Task.ofCodec result >>= left).run.Parallel conduct
      (Task.ofCodec result >>= right).run := by
  rw [run_bind, run_bind]
  cases result with
  | ok value => exact later value rfl
  | error cause => exact .done _

theorem parallel_mapM {left right : Item → Task Result} {items : List Item}
    (each : ∀ item ∈ items, (left item).run.Parallel conduct (right item).run) :
    (items.mapM left).run.Parallel conduct (items.mapM right).run := by
  induction items with
  | nil => exact parallel_done (.ok [])
  | cons item rest induction =>
      rw [List.mapM_cons, List.mapM_cons]
      have others :=
        induction fun other member => each other (List.mem_cons_of_mem _ member)
      exact parallel_bind (each item List.mem_cons_self) fun _ =>
        parallel_bind others fun _ => .done _

theorem parallel_query_bind {object : String} {template : StoreObject}
    {left right : List StoreObject → Task Other} (asked : conduct.Asks template)
    (later : ∀ answers others, List.Forall₂ conduct.Alike answers others →
      (left answers).run.Parallel conduct (right others).run) :
    (Task.query object template >>= left).run.Parallel conduct
      (Task.query object template >>= right).run := by
  rw [run_bind, run_bind]
  refine .query asked fun reply other replied => ?_
  cases replied with
  | ok answers => exact later _ _ answers
  | error cause => exact .done _

theorem parallel_transact_bind {name : String} {object other : StoreObject}
    {next : Task Result} (paired : conduct.Sets object other)
    (later : next.run.Parallel conduct next.run) :
    (Task.transact name [⟨.set, object⟩] >>= fun _ => next).run.Parallel conduct
      (Task.transact name [⟨.set, other⟩] >>= fun _ => next).run := by
  rw [run_bind, run_bind]
  refine .set paired fun reply other replied => ?_
  cases replied with
  | ok answers => exact later
  | error cause => exact .done _

theorem parallel_record {left right : Task Result} {target : String}
    (parallel : left.run.Parallel conduct right.run) :
    (left.record target).Parallel conduct (right.record target) :=
  parallel.bind fun _ => .done _

end Task

end SwitchQos
