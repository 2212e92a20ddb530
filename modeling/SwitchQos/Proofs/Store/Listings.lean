import SwitchQos.Proofs.Store.Exchange
import SwitchQos.Store.Memory

namespace SwitchQos

/-! Where listings come from. A store may have its listings prepared one after the other,
apart from all else it answers, and the script of a store in memory prepares them so. -/

/-! ## Prepared listings -/

namespace Responder

variable {State : Type}

def listing (responder : Responder State) (interfaceClass : InterfaceClass)
    (replies : Nat → PortsReply) : Responder (State × Nat) where
  query template state :=
    let (reply, after) := responder.query template state.1
    (reply, after, state.2)
  transact batch state :=
    let (reply, after) := responder.transact batch state.1
    (reply, after, state.2)
  listPorts asked state :=
    if asked = interfaceClass then (replies state.2, state.1, state.2 + 1)
    else
      let (reply, after) := responder.listPorts asked state.1
      (reply, after, state.2)

theorem listPorts_listing (responder : Responder State) (interfaceClass : InterfaceClass)
    (replies : Nat → PortsReply) (state : State × Nat) :
    (responder.listing interfaceClass replies).listPorts interfaceClass state =
      (replies state.2, state.1, state.2 + 1) := if_pos rfl

end Responder

/-! ## Scripts -/

namespace ListingScript

def after (script : ListingScript) : Nat → ListingScript
  | 0 => script
  | count + 1 => script.next.2.after count

def reply (script : ListingScript) (count : Nat) : List Port :=
  (script.after count).next.1

theorem after_succ (script : ListingScript) (count : Nat) :
    script.after (count + 1) = (script.after count).next.2 := by
  induction count generalizing script with
  | zero => rfl
  | succ count induction => exact induction script.next.2

theorem calls_next (script : ListingScript) : script.next.2.calls = script.calls + 1 := by
  rw [next]
  split <;> rfl

theorem calls_after (script : ListingScript) (count : Nat) :
    (script.after count).calls = script.calls + count := by
  induction count with
  | zero => rfl
  | succ count induction => rw [after_succ, calls_next, induction, Nat.add_assoc]

theorem reply_eq {script : ListingScript} {count : Nat} {listing : List Port}
    (planned : script.pending[count]? = some listing) : script.reply count = listing := by
  rcases script with ⟨pending, calls⟩
  induction count generalizing pending calls with
  | zero =>
      rcases pending with _ | ⟨first, _ | ⟨second, rest⟩⟩ <;> cases planned <;> rfl
  | succ count induction =>
      rcases pending with _ | ⟨first, _ | ⟨second, rest⟩⟩
      · cases planned
      · cases planned
      · exact induction _ (calls + 1) planned

theorem reply_succ {script : ListingScript} {count : Nat}
    (planned : script.pending.length = count + 1) :
    script.reply (count + 1) = script.reply count := by
  rcases script with ⟨pending, calls⟩
  induction count generalizing pending calls with
  | zero =>
      rcases List.length_eq_one_iff.mp planned with ⟨last, rfl⟩
      rfl
  | succ count induction =>
      rcases pending with _ | ⟨first, _ | ⟨second, rest⟩⟩
      · cases planned
      · cases planned
      · exact induction _ (calls + 1) (Nat.succ.inj planned)

end ListingScript

namespace Memory

variable {memory : Memory} {interfaceClass : InterfaceClass} {script : ListingScript}

theorem withScript_script :
    memory.withScript interfaceClass (memory.script interfaceClass) =
    memory := by
  cases interfaceClass <;> rfl

theorem script_withScript :
    (memory.withScript interfaceClass script).script interfaceClass = script := by
  cases interfaceClass <;> rfl

theorem query_withScript (template : StoreObject) :
    (memory.withScript interfaceClass script).query template =
      ((memory.query template).1,
        (memory.query template).2.withScript interfaceClass script) := by
  rcases memory with ⟨_, contents, _, _, _ | unavailable, _, _⟩ <;>
    cases interfaceClass <;>
    first
      | rfl
      | (simp only [withScript, query]
         cases ObjectClass.ofPath template.classPath <;> rfl)

theorem transact_withScript (batch : List Operation) :
    (memory.withScript interfaceClass script).transact batch =
      ((memory.transact batch).1,
        (memory.transact batch).2.withScript interfaceClass script) := by
  cases interfaceClass <;> simp only [withScript, transact] <;>
    cases memory.contents.performAll memory.rules batch <;> rfl

theorem listPorts_withScript :
    (memory.withScript interfaceClass script).listPorts interfaceClass =
      (.ok script.next.1, memory.withScript interfaceClass script.next.2) := by
  cases interfaceClass <;> rfl

theorem listPorts_withScript_of_ne {asked : InterfaceClass}
    (other : asked ≠ interfaceClass) :
    (memory.withScript interfaceClass script).listPorts asked =
      ((memory.listPorts asked).1,
        (memory.listPorts asked).2.withScript interfaceClass script) := by
  cases interfaceClass <;> cases asked <;> first | rfl | contradiction

/-- A store that lists from a script is one whose listings are prepared accordingly. -/
theorem run_listing {Result : Type} (exchange : Exchange Result) (count : Nat) :
    exchange.run responder (memory.withScript interfaceClass (script.after count)) =
      match exchange.run (responder.listing interfaceClass fun count =>
        .ok (script.reply count)) (memory, count) with
      | (result, after, later) =>
          (result, after.withScript interfaceClass (script.after later)) := by
  induction exchange generalizing memory count with
  | done | stalled => rfl
  | query template next induction =>
      change Exchange.run responder
        (next ((memory.withScript interfaceClass (script.after count)).query template).1)
        ((memory.withScript interfaceClass (script.after count)).query template).2 = _
      rw [query_withScript]
      exact induction _ count
  | transact batch next induction =>
      change Exchange.run responder
        (next ((memory.withScript interfaceClass (script.after count)).transact batch).1)
        ((memory.withScript interfaceClass (script.after count)).transact batch).2 = _
      rw [transact_withScript]
      exact induction _ count
  | listPorts asked next induction =>
      change Exchange.run responder
        (next ((memory.withScript interfaceClass (script.after count)).listPorts asked).1)
        ((memory.withScript interfaceClass (script.after count)).listPorts asked).2 = _
      rw [Exchange.run]
      by_cases isIt : asked = interfaceClass
      · subst isIt
        rw [listPorts_withScript, ← ListingScript.after_succ, Responder.listPorts_listing]
        exact induction _ (count + 1)
      · have passed : (Memory.responder.listing interfaceClass fun count =>
            .ok (script.reply count)).listPorts asked (memory, count) =
              ((memory.listPorts asked).1, (memory.listPorts asked).2, count) := by
          exact if_neg isIt
        rw [listPorts_withScript_of_ne isIt, passed]
        exact induction _ count

/-! ## Standing listings -/

structure Stands (listing : InterfaceClass → List Port) (memory : Memory) : Prop where
  unruled : memory.rules = []
  available : memory.unavailable = 0
  listings : ∀ interfaceClass, (memory.script interfaceClass).pending =
    [listing interfaceClass]

section Stands

variable {listing : InterfaceClass → List Port}

theorem Stands.query (stands : memory.Stands listing) (template : StoreObject) :
    (memory.query template).2.Stands listing := by
  have unchanged : (memory.query template).2 = memory := by
    rw [Memory.query, if_neg (by simp [stands.available])]
    split <;> rfl
  rwa [unchanged]

theorem Stands.transact (stands : memory.Stands listing) (batch : List Operation) :
    (memory.transact batch).2.Stands listing := by
  rw [Memory.transact]
  split
  · exact stands
  · exact ⟨stands.unruled, stands.available, fun interfaceClass => by
      rw [← stands.listings interfaceClass]
      cases interfaceClass <;> rfl⟩

theorem Stands.listPorts_eq (stands : memory.Stands listing)
    (interfaceClass : InterfaceClass) :
    (memory.listPorts interfaceClass).1 = .ok (listing interfaceClass) ∧
      (memory.listPorts interfaceClass).2.Stands listing := by
  have pending := stands.listings interfaceClass
  have next : (memory.script interfaceClass).next = (listing interfaceClass,
      { memory.script interfaceClass with
        calls := (memory.script interfaceClass).calls + 1 }) := by
    rw [ListingScript.next, pending]
    exact congrArg _ (congrArg (ListingScript.mk · _) pending.symm)
  rw [listPorts, next]
  refine ⟨rfl, ?_, ?_, fun other => ?_⟩
  · rw [← stands.unruled]
    cases interfaceClass <;> rfl
  · rw [← stands.available]
    cases interfaceClass <;> rfl
  · rw [← stands.listings other]
    cases interfaceClass <;> cases other <;> rfl

theorem Stands.of_reaches {Result : Type} {exchange rest : Exchange Result}
    {later : Memory} (reaches : Exchange.Reaches responder exchange memory rest later)
    (stands : memory.Stands listing) : later.Stands listing := by
  induction reaches with
  | here => exact stands
  | query _ induction => exact induction (stands.query _)
  | transact _ induction => exact induction (stands.transact _)
  | listPorts _ induction => exact induction (stands.listPorts_eq _).2

end Stands

end Memory

end SwitchQos
