import SwitchQos.Proofs.Store.Integrity

namespace SwitchQos

/-! What a query tells about the stored objects. The store answers with the keys of an
object set apart, and with the entries of a table put to it from where they are stored. To
one who reads the answer as a record neither shows: each attribute reads as it is stored,
and a table has just the entries that carry its id. -/

/-! ## Templates -/

def StoreValue.isCollection : StoreValue → Bool
  | .entries _ => true
  | _ => false

namespace StoreObject

def Meets (object template : StoreObject) : Prop :=
  ∀ row ∈ template.attrs.rows, row.2.isCollection = false → object.get? row.1 = some row.2

instance (object template : StoreObject) : Decidable (object.Meets template) :=
  inferInstanceAs (Decidable (∀ row ∈ template.attrs.rows, _))

theorem agrees_iff {object : StoreObject} {row : String × StoreValue} :
    agreesWith.agrees object row = true ↔
      (row.2.isCollection = false → object.get? row.1 = some row.2) := by
  rcases row with ⟨path, value⟩
  cases value <;> simp [agreesWith.agrees, StoreValue.isCollection]

theorem IsPlain.agreesWith_iff {template : StoreObject} (plain : template.IsPlain)
    (object : StoreObject) : object.agreesWith template = true ↔
    object.Meets template := by
  rcases template with ⟨classPath, attrs, keyData⟩
  cases plain
  rw [agreesWith, List.all_eq_true]
  exact forall₂_congr fun row _ => agrees_iff

end StoreObject

/-! ## Answers -/

namespace Contents

variable {contents : Contents} {objectClass : ObjectClass} {mapType : MapType}
  {stored table : StoreObject} {attr : String} {id : StoreValue}

def entriesWithId (contents : Contents) (mapType : MapType) (id : StoreValue) :
    List StoreObject :=
  (contents.ofClass (.mapEntry mapType)).filter fun entry =>
    entry.get? ((ObjectClass.mapEntry mapType).pathOf "id") = some id

theorem entriesOf_eq_entriesWithId
    (hasId : table.get? ((ObjectClass.mapTable mapType).pathOf "id") = some id) :
    contents.entriesOf mapType table = contents.entriesWithId mapType id := by
  rw [entriesOf, entriesWithId, ofClass, List.filter_filter]
  refine List.filter_congr fun stored _ => ?_
  rw [belongsTo, ← ObjectClass.pathOf_id_table, hasId,
    ObjectClass.pathOf_id_entry, Bool.and_comm]

/-- The answer shows the stored object of the class: it is of that class, every attribute
of it and its id read as they are stored, and that of a table under which its entries come
has those with its id. -/
structure Shows (contents : Contents) (objectClass : ObjectClass)
    (stored answer : StoreObject) :
    Prop where
  wraps : Record.wrap answer = .ok (.view objectClass answer)
  id : (Record.view objectClass answer).id = objectClass.decodeNat "id" stored
  attrs : ∀ attr, objectClass.Has attr →
    (attr = "entry" → ∀ mapType, objectClass ≠ .mapTable mapType) →
      (Record.view objectClass answer).attr attr = objectClass.decode attr stored
  entries : ∀ mapType, objectClass = .mapTable mapType → ∃ id,
    stored.get? (objectClass.pathOf "id") = some id ∧
      (Record.view objectClass answer).attr "entry" =
        .ok (some (.objects (contents.entriesWithId mapType id)))

theorem classPath_found :
    (Memory.found contents objectClass stored).classPath = stored.classPath := by
  cases objectClass <;> rfl

theorem get?_found_of_ne (has : objectClass.Has attr)
    (other : attr = "entry" → ∀ mapType, objectClass ≠ .mapTable mapType) :
    (Memory.found contents objectClass stored).get? (objectClass.pathOf attr) =
      stored.get? (objectClass.pathOf attr) := by
  cases objectClass with
  | mapTable mapType =>
      have hasEntry : (ObjectClass.mapTable mapType).Has "entry" := by
        rw [ObjectClass.Has]
        rfl
      have different : "entry" ≠ attr := fun same => other same.symm mapType rfl
      rw [Memory.found, ← ObjectClass.pathOf_entry_table,
        StoreObject.get?_insert_of_ne _ (ObjectClass.pathOf_ne hasEntry has different)]
  | _ => rfl

/-- The ports have no id, but then nothing comes to them either. -/
theorem get?_id_found :
    (Memory.found contents objectClass stored).get? (objectClass.pathOf "id") =
      stored.get? (objectClass.pathOf "id") := by
  cases objectClass with
  | mapTable mapType =>
      have hasId : (ObjectClass.mapTable mapType).Has "id" := by
        rw [ObjectClass.Has]
        rfl
      exact get?_found_of_ne hasId fun impossible => absurd impossible (by decide)
  | _ => rfl

theorem decode_answer_found (plain : stored.IsPlain) (has : objectClass.Has attr)
    (other : attr = "entry" → ∀ mapType, objectClass ≠ .mapTable mapType) :
    objectClass.decode attr
      ((Memory.found contents objectClass stored).answer objectClass) =
      objectClass.decode attr stored := by
  apply ObjectClass.decode_congr
  rw [StoreObject.lookup_answer, get?_found_of_ne has other, plain.lookup]

theorem decode_entry_answer_found
    (hasId : stored.get? ((ObjectClass.mapTable mapType).pathOf "id") = some id) :
    (ObjectClass.mapTable mapType).decode "entry"
        ((Memory.found contents (.mapTable mapType) stored).answer (.mapTable mapType)) =
      .ok (some (.objects (contents.entriesWithId mapType id))) := by
  have listed : (ObjectClass.mapTable mapType).spec? "entry" = some .entries := rfl
  refine (ObjectClass.decode_eq_some_iff listed).mpr
    ⟨.entries (contents.entriesWithId mapType id), ?_, rfl, rfl⟩
  rw [StoreObject.lookup_answer, Memory.found, ← ObjectClass.pathOf_entry_table,
    entriesOf_eq_entriesWithId hasId, StoreObject.get?_insert_self]

theorem Intact.shows (intact : contents.Intact)
    (isStored : stored ∈ contents.ofClass objectClass) :
    contents.Shows objectClass stored
      ((Memory.found contents objectClass stored).answer objectClass) := by
  rcases mem_ofClass_iff.mp isStored with ⟨member, isOf⟩
  have plain := intact.plain stored member
  constructor
  case wraps => exact Record.wrap_answer (classPath_found.trans isOf)
  case id =>
    apply ObjectClass.decodeNat_congr
    rw [Record.data, StoreObject.lookup_answer, Record.objectClass,
      get?_id_found, plain.lookup]
  case attrs => exact fun attr has other => decode_answer_found plain has other
  case entries =>
    rintro mapType rfl
    have numbered := intact.numbered stored member _ isOf rfl
    rcases Option.isSome_iff_exists.mp numbered with ⟨id, hasId⟩
    exact ⟨id, hasId, decode_entry_answer_found hasId⟩

end Contents

/-! ## Queries -/

namespace Memory

variable {memory : Memory} {objectClass : ObjectClass} {template : StoreObject}

theorem ReachedBy.available {allowed : Operation → Prop}
    (reached : memory.ReachedBy allowed) :
    memory.unavailable = 0 := by
  induction reached with
  | new switchId => rfl
  | transact _ _ induction => rw [unavailable_transact, induction]
  | refuse _ rule induction => exact induction

/-- On every store that clients have brought about, a query changes nothing and brings, in
the order of their creation, an answer for each stored object of the class that has what
the template gives; and the answer shows the object, a table with its entries. -/
theorem query_shows_stored
    (reached : memory.ReachedBy fun operation => operation.object.IsPlain)
    (isOf : template.classPath = objectClass.path) (plain : template.IsPlain) :
    ∃ answers, memory.query template = (.ok answers, memory) ∧
      List.Forall₂ (memory.contents.Shows objectClass)
        ((memory.contents.ofClass objectClass).filter fun stored => stored.Meets template)
        answers := by
  have matching : ((memory.contents.ofClass objectClass).filter fun stored =>
      stored.agreesWith template) =
        (memory.contents.ofClass objectClass).filter fun stored =>
        stored.Meets template :=
    List.filter_congr fun stored _ => by
      rw [Bool.eq_iff_iff, plain.agreesWith_iff, decide_eq_true_eq]
  refine ⟨_, query_eq_found template reached.available isOf, ?_⟩
  rw [matching, List.forall₂_map_right_iff, List.forall₂_same]
  exact fun stored listed => reached.intact.shows (List.mem_of_mem_filter listed)

/-- Two tables with an entry each: the answer for one of them comes with its own entry,
and the collection in the template is not compared. -/
theorem query_shows_stored_tables :
    let table := (ObjectClass.mapTable .dot1pToTc).assemble []
    let entry (id key : Nat) := (ObjectClass.mapEntry .dot1pToTc).assemble
      [("tc", Storage.uint8.word 3), ("dot1p", Storage.uint8.word key),
        ("id", Storage.uint64.word id)]
    let filled := ((Memory.new 0).transact [⟨.create, table⟩, ⟨.create, table⟩,
      ⟨.create, entry 4097 7⟩, ⟨.create, entry 4096 7⟩]).2
    let template := (ObjectClass.mapTable .dot1pToTc).assemble
      [("entry", .entries []), ("id", Storage.uint64.word 4097)]
    filled.ReachedBy (fun operation => operation.object.IsPlain) ∧
      template.classPath = (ObjectClass.mapTable .dot1pToTc).path ∧ template.IsPlain ∧
      ∃ answer, filled.query template = (.ok [answer], filled) ∧
        (Record.view (.mapTable .dot1pToTc) answer).id = .ok (some 4097) ∧
        (Record.view (.mapTable .dot1pToTc) answer).attr "entry" =
          .ok (some (.objects [entry 4097 7])) := by
  intro table entry filled template
  have reached : filled.ReachedBy fun operation => operation.object.IsPlain := by
    refine .transact (.new 0) ?_
    simp only [List.forall_mem_cons]
    exact ⟨rfl, rfl, rfl, rfl, fun _ none => nomatch none⟩
  have isOf : template.classPath = (ObjectClass.mapTable .dot1pToTc).path := rfl
  have plain : template.IsPlain := rfl
  rcases query_shows_stored reached isOf plain with ⟨answers, queried, shown⟩
  have matching : ((filled.contents.ofClass (.mapTable .dot1pToTc)).filter fun stored =>
      stored.Meets template) = [(ObjectClass.mapTable .dot1pToTc).assemble
        [("id", Storage.uint64.word 4097)]] := by decide +kernel
  rw [matching] at shown
  cases shown with
  | @cons _ answer _ _ shows none =>
      cases none
      refine ⟨reached, isOf, plain, answer, queried, ?_, ?_⟩
      · rw [shows.id]
        decide +kernel
      · rcases shows.entries _ rfl with ⟨id, hasId, read⟩
        cases hasId
        rw [read]
        have ownEntries : filled.contents.entriesWithId .dot1pToTc
          (Storage.uint64.word 4097) =
            [entry 4097 7] := by decide +kernel
        exact congrArg (fun entries =>
          Except.ok (some (AttrValue.objects entries))) ownEntries

end Memory

end SwitchQos
