import SwitchQos.Proofs.Store.FiniteMap

namespace SwitchQos

/-! The stores that clients can bring about, starting from a new one, when each
operation names its entity by complete keys. On all of them a single operation does
to the map of entities what its verb says, or else it is rejected and changes
nothing. -/

/-- The operation addresses one entity of the class. Only the id that the store
assigns to a new object may be left out. -/
structure Operation.Keyed (operation : Operation) (objectClass : ObjectClass) : Prop where
  classPath : operation.object.classPath = objectClass.path
  plain : operation.object.IsPlain
  keys : ∀ attr ∈ objectClass.keyAttrs,
    (operation.object.get? (objectClass.pathOf attr)).isSome ∨
      operation.verb = .create ∧ objectClass.allocatesId = true ∧ attr = "id"

inductive Memory.Reached : Memory → Prop
  | new (switchId : Nat) : Reached (.new switchId)
  | transact {memory : Memory} {batch : List Operation} (reached : Reached memory)
      (keyed : ∀ operation ∈ batch, ∃ objectClass, operation.Keyed objectClass) :
      Reached (memory.transact batch).2

namespace Contents

variable {contents after : Contents} {objectClass : ObjectClass} {operation : Operation}

/-! ## The invariant of reachable stores -/

theorem identity?_of_keyed (keyed : operation.Keyed objectClass)
    (present : operation.verb ≠ .create) :
    ∃ key, objectClass.identity? operation.object = some key := by
  apply ObjectClass.exists_identity?
  intro attr isKey
  rw [keyed.plain.lookup]
  rcases keyed.keys attr isKey with given | ⟨creates, -⟩
  · exact given
  · exact absurd creates present

theorem identity?_of_completed? (keyed : operation.Keyed objectClass)
    {created : StoreObject}
    (completed : contents.completed? objectClass operation.object = some created) :
    ∃ key, objectClass.identity? created = some key := by
  apply ObjectClass.exists_identity?
  intro attr isKey
  rw [(isPlain_of_completed? keyed.plain completed).lookup]
  have kept : ∀ path, (operation.object.get? path).isSome →
      (created.get? path).isSome := by
    intro path given
    rw [completed?] at completed
    split at completed
    · split at completed
      · cases completed
        by_cases same : objectClass.pathOf "id" = path
        · simp [same]
        · rw [StoreObject.get?_insert_of_ne _ same]
          exact given
      · cases completed
    · cases completed
      exact given
  by_cases given : (operation.object.get? (objectClass.pathOf attr)).isSome
  · exact kept _ given
  · rcases keyed.keys attr isKey with other | ⟨-, allocates, rfl⟩
    · exact absurd other given
    · exact id_of_completed? allocates completed

theorem Tidy.carryOut (tidy : contents.Tidy) (keyed : operation.Keyed objectClass)
    {result : StoreObject}
    (carried : contents.carryOut operation.verb objectClass operation.object =
      .ok (result, after)) : after.Tidy := by
  cases verb : operation.verb with
  | create =>
      rw [verb] at carried
      rcases create_eq_ok_iff.mp carried with ⟨-, completed, -, free, rfl⟩
      rcases identity?_of_completed? keyed completed with ⟨key, identified⟩
      have samePath := (classPath_of_completed? completed).trans keyed.classPath
      exact tidy.created (isPlain_of_completed? keyed.plain completed)
        (StoreObject.entity?_eq_some_iff.mpr ⟨samePath, identified⟩) free
  | set =>
      rw [verb] at carried
      rcases (set_eq_ok_iff tidy.distinct).mp carried with ⟨stored, -, -, -, rfl⟩
      exact tidy.overwritten
  | delete =>
      rw [verb] at carried
      rcases (delete_eq_ok_iff tidy.distinct).mp carried with ⟨-, -, rfl⟩
      exact tidy.filter _

theorem Tidy.keeps (keyed : operation.Keyed objectClass) : Keeps Tidy operation := by
  intro before after otherClass result samePath tidy carried
  rw [keyed.classPath, ObjectClass.path_inj] at samePath
  subst samePath
  exact tidy.carryOut keyed carried

end Contents

namespace Memory

theorem Reached.tidy {memory : Memory} (reached : memory.Reached) :
    memory.contents.Tidy := by
  induction reached with
  | new switchId => exact ⟨by simp [Memory.new], by simp [Memory.new], .nil⟩
  | transact _ keyed induction =>
      refine transact_keeps (fun operation member => ?_) induction
      rcases keyed operation member with ⟨objectClass, operationKeyed⟩
      exact Contents.Tidy.keeps operationKeyed

theorem Reached.rules_eq {memory : Memory} (reached : memory.Reached) :
    memory.rules = [] := by
  induction reached with
  | new switchId => rfl
  | transact _ _ induction => rw [rules_transact, induction]

end Memory

/-! ## Single operations -/

namespace Contents

variable {contents after : Contents} {objectClass : ObjectClass} {operation : Operation}
  {key : List StoreValue}

theorem addressed_free_iff {created : StoreObject}
    (identified : objectClass.identity? created = some key) :
    (∀ stored ∈ contents.objects, ¬addressed objectClass created stored = true) ↔
      contents.entities ⟨objectClass, key⟩ = none := by
  rw [entities_eq_none_iff]
  exact forall₂_congr fun stored _ => not_congr (addressed_of_identity? identified)

theorem create_effect (tidy : contents.Tidy) {object created : StoreObject}
    (samePath : object.classPath = objectClass.path) (plain : object.IsPlain)
    (completed : contents.completed? objectClass object = some created)
    (identified : objectClass.identity? created = some key) :
    ((∃ result after, contents.create objectClass object = .ok (result, after)) ↔
      objectClass.Has "id" ∧ contents.entities ⟨objectClass, key⟩ = none ∧
        ∀ table, Entity.table? ⟨objectClass, key⟩ = some table →
          contents.entities table ≠ none) ∧
    ∀ result after, contents.create objectClass object = .ok (result, after) →
      after.entities = contents.entities.put ⟨objectClass, key⟩ created.get? := by
  have createdPlain := isPlain_of_completed? plain completed
  have found : created.entity? = some ⟨objectClass, key⟩ :=
    StoreObject.entity?_eq_some_iff.mpr
      ⟨(classPath_of_completed? completed).trans samePath, identified⟩
  have parent := hasParent_iff tidy createdPlain found
  have free : _ ↔ contents.entities _ = none := addressed_free_iff identified
  constructor
  · constructor
    · rintro ⟨result, after, done⟩
      rcases create_eq_ok_iff.mp done with ⟨has, given, hasParent, absent, rfl⟩
      rw [completed] at given
      cases given
      exact ⟨has, free.mp absent, parent.mp hasParent⟩
    · rintro ⟨has, absent, hasTable⟩
      exact ⟨created, _, create_eq_ok_iff.mpr
        ⟨has, completed, parent.mpr hasTable, free.mpr absent, rfl⟩⟩
  · intro result after done
    rcases create_eq_ok_iff.mp done with ⟨-, given, -, absent, rfl⟩
    rw [completed] at given
    cases given
    exact entities_append found (free.mp absent)

theorem set_effect (tidy : contents.Tidy) {object : StoreObject} (plain : object.IsPlain)
    (identified : objectClass.identity? object = some key) :
    ((∃ result after, contents.set objectClass object = .ok (result, after)) ↔
      contents.entities ⟨objectClass, key⟩ ≠ none) ∧
    ∀ attrs, contents.entities ⟨objectClass, key⟩ = some attrs →
      (∀ result after, contents.set objectClass object = .ok (result, after) →
        after.entities =
          contents.entities.put ⟨objectClass, key⟩ (overridden attrs object.get?)) ∧
      ∀ attr ∈ objectClass.keyAttrs,
        overridden attrs object.get? (objectClass.pathOf attr) =
          attrs (objectClass.pathOf attr) := by
  refine ⟨?_, fun attrs present => ⟨fun result after done => ?_, fun attr isKey => ?_⟩⟩
  · rw [entities_isSome_iff]
    constructor
    · rintro ⟨result, after, done⟩
      rcases (set_eq_ok_iff tidy.distinct).mp done with ⟨stored, member, hit, -⟩
      exact ⟨stored, member, (addressed_of_identity? identified).mp hit⟩
    · rintro ⟨stored, member, found⟩
      exact ⟨_, _, (set_eq_ok_iff tidy.distinct).mpr
        ⟨stored, member, (addressed_of_identity? identified).mpr found, rfl, rfl⟩⟩
  · rcases (set_eq_ok_iff tidy.distinct).mp done with ⟨stored, -, -, -, rfl⟩
    exact entities_overwritten tidy plain identified present
  · rcases (entities_eq_some_iff tidy.distinct).mp present with
      ⟨stored, member, found, rfl⟩
    have storedKey := (StoreObject.entity?_eq_some_iff.mp found).2
    have same := ObjectClass.lookup_eq_of_identity?_eq identified storedKey isKey
    rw [plain.lookup, (tidy.plain stored member).lookup] at same
    rw [overridden, same, Option.or_self]

theorem delete_effect (tidy : contents.Tidy) {object : StoreObject}
    (identified : objectClass.identity? object = some key) :
    ((∃ result after, contents.delete objectClass object = .ok (result, after)) ↔
      contents.entities ⟨objectClass, key⟩ ≠ none) ∧
    ∀ result after, contents.delete objectClass object = .ok (result, after) →
      after.entities = contents.entities.remove ⟨objectClass, key⟩ := by
  refine ⟨?_, fun result after done => ?_⟩
  · rw [entities_isSome_iff]
    constructor
    · rintro ⟨result, after, done⟩
      rcases (delete_eq_ok_iff tidy.distinct).mp done with ⟨member, hit, -⟩
      exact ⟨result, member, (addressed_of_identity? identified).mp hit⟩
    · rintro ⟨stored, member, found⟩
      exact ⟨stored, _, (delete_eq_ok_iff tidy.distinct).mpr
        ⟨member, (addressed_of_identity? identified).mpr found, rfl⟩⟩
  · rcases (delete_eq_ok_iff tidy.distinct).mp done with ⟨member, hit, rfl⟩
    exact entities_deleted tidy identified member hit

end Contents

namespace Memory

variable {memory : Memory} {operation : Operation} {objectClass : ObjectClass}

theorem transact_singleton (unruled : memory.rules = [])
    (samePath : operation.object.classPath = objectClass.path) :
    ((memory.transact [operation]).1.isOk = true ↔
      ∃ result after, memory.contents.carryOut operation.verb objectClass
        operation.object = .ok (result, after)) ∧
    ((memory.transact [operation]).1.isOk = true →
      ∃ result, memory.contents.carryOut operation.verb objectClass operation.object =
        .ok (result, (memory.transact [operation]).2.contents)) ∧
    (¬(memory.transact [operation]).1.isOk = true →
      (memory.transact [operation]).2 = memory) := by
  have done :=
    fun answers after => @transact_singleton_eq_ok_iff memory operation objectClass
    answers after (by simp [unruled]) samePath
  have carriedOut : (memory.transact [operation]).1.isOk = true →
      ∃ result, memory.contents.carryOut operation.verb objectClass operation.object =
        .ok (result, (memory.transact [operation]).2.contents) := by
    intro accepted
    rcases isOk_transact_iff.mp accepted with ⟨answers, after, outcome⟩
    rcases (done _ _).mp outcome with ⟨result, contents, carried, -, rfl⟩
    rw [outcome]
    exact ⟨result, carried⟩
  refine ⟨⟨fun accepted => ?_, ?_⟩, carriedOut, transact_unchanged⟩
  · rcases carriedOut accepted with ⟨result, carried⟩
    exact ⟨result, _, carried⟩
  · rintro ⟨result, after, carried⟩
    exact isOk_transact_iff.mpr ⟨_, _, (done _ _).mpr ⟨result, after, carried, rfl, rfl⟩⟩

/-- On every reachable store an operation acts on the map of entities. A new object
joins if its class has ids, its entity is not there yet, and the table of an entry
is there; setting changes one entity, and its keys stay; deleting drops one entity,
with a table all of its entries. What is rejected changes nothing. -/
theorem transact_refines (reached : memory.Reached)
    (keyed : operation.Keyed objectClass) :
    let outcome := memory.transact [operation]
    let accepted := outcome.1.isOk = true
    let before := memory.contents.entities
    let after := outcome.2.contents.entities
    (operation.verb = .create →
      match memory.contents.completed? objectClass operation.object with
      | none => ¬accepted
      | some created => ∃ key, objectClass.identity? created = some key ∧
          (accepted ↔ objectClass.Has "id" ∧ before ⟨objectClass, key⟩ = none ∧
            ∀ table, Entity.table? ⟨objectClass, key⟩ = some table →
            before table ≠ none) ∧
          (accepted → after = before.put ⟨objectClass, key⟩ created.get?)) ∧
    (operation.verb = .set →
      ∃ key, objectClass.identity? operation.object = some key ∧
        (accepted ↔ before ⟨objectClass, key⟩ ≠ none) ∧
        ∀ attrs, before ⟨objectClass, key⟩ = some attrs →
          after = before.put ⟨objectClass, key⟩ (overridden attrs operation.object.get?) ∧
          ∀ attr ∈ objectClass.keyAttrs,
            overridden attrs operation.object.get? (objectClass.pathOf attr) =
              attrs (objectClass.pathOf attr)) ∧
    (operation.verb = .delete →
      ∃ key, objectClass.identity? operation.object = some key ∧
        (accepted ↔ before ⟨objectClass, key⟩ ≠ none) ∧
        (accepted → after = before.remove ⟨objectClass, key⟩)) ∧
    (¬accepted → outcome.2 = memory) := by
  intro outcome accepted before after
  have tidy := reached.tidy
  rcases transact_singleton reached.rules_eq keyed.classPath with
      ⟨acceptedIff, carried, rejectedSame⟩
  refine ⟨fun verb => ?_, fun verb => ?_, fun verb => ?_, rejectedSame⟩
  · rw [verb] at acceptedIff carried
    cases completed : memory.contents.completed? objectClass operation.object with
    | none =>
        intro isAccepted
        rcases acceptedIff.mp isAccepted with ⟨result, contents, created⟩
        have given := (Contents.create_eq_ok_iff.mp created).2.1
        rw [completed] at given
        cases given
    | some created =>
        rcases Contents.identity?_of_completed? keyed completed with ⟨key, identified⟩
        rcases Contents.create_effect tidy keyed.classPath keyed.plain
            completed identified with
            ⟨possible, effect⟩
        refine ⟨key, identified, acceptedIff.trans possible, fun isAccepted => ?_⟩
        rcases carried isAccepted with ⟨result, done⟩
        exact effect result _ done
  · rw [verb] at acceptedIff carried
    rcases Contents.identity?_of_keyed keyed (by simp [verb]) with ⟨key, identified⟩
    rcases Contents.set_effect tidy keyed.plain identified with ⟨possible, effect⟩
    refine ⟨key, identified, acceptedIff.trans possible, fun attrs present => ?_⟩
    rcases effect attrs present with ⟨changed, sameKeys⟩
    have stored : memory.contents.entities ⟨objectClass, key⟩ ≠ none :=
      fun absent => by simp [before, absent] at present
    rcases carried (acceptedIff.mpr (possible.mpr stored)) with ⟨result, done⟩
    exact ⟨changed result _ done, sameKeys⟩
  · rw [verb] at acceptedIff carried
    rcases Contents.identity?_of_keyed keyed (by simp [verb]) with ⟨key, identified⟩
    rcases Contents.delete_effect tidy identified with ⟨possible, effect⟩
    refine ⟨key, identified, acceptedIff.trans possible, fun isAccepted => ?_⟩
    rcases carried isAccepted with ⟨result, done⟩
    exact effect result _ done

/-- A table with one entry: deleting the table takes the entry along. -/
theorem transact_refines_table :
    let table :=
  (ObjectClass.mapTable .dot1pToTc).assemble [("id", Storage.uint64.word 5)]
    let entry := (ObjectClass.mapEntry .dot1pToTc).assemble
      [("dot1p", Storage.uint8.word 7), ("id", Storage.uint64.word 5)]
    let filled := ((Memory.new 0).transact [⟨.create, table⟩, ⟨.create, entry⟩]).2
    let emptied := (filled.transact [⟨.delete, table⟩]).2
    filled.Reached ∧ Operation.Keyed ⟨.delete, table⟩ (.mapTable .dot1pToTc) ∧
      emptied.contents.entities =
        filled.contents.entities.remove
          ⟨.mapTable .dot1pToTc, [Storage.uint64.word 5]⟩ := by
  intro table entry filled emptied
  have tableKeyed : ∀ verb,
      Operation.Keyed ⟨verb, table⟩ (.mapTable .dot1pToTc) := fun verb =>
    ⟨rfl, rfl, fun attr isKey => .inl (by rw [List.mem_singleton.mp isKey]; rfl)⟩
  have entryKeyed : Operation.Keyed ⟨.create, entry⟩ (.mapEntry .dot1pToTc) := by
    refine ⟨rfl, rfl, fun attr isKey => .inl ?_⟩
    rcases List.mem_cons.mp isKey with rfl | later
    · rfl
    · rw [List.mem_singleton.mp later]
      rfl
  have reached : filled.Reached := by
    refine .transact (.new 0) fun operation member => ?_
    rcases List.mem_cons.mp member with rfl | later
    · exact ⟨_, tableKeyed .create⟩
    · rw [List.mem_singleton.mp later]
      exact ⟨_, entryKeyed⟩
  rcases (transact_refines reached (tableKeyed .delete)).2.2.1 rfl with
      ⟨key, identified, -, effect⟩
  cases identified
  exact ⟨reached, tableKeyed .delete, effect (by decide +kernel)⟩

end Memory

end SwitchQos
