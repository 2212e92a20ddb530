import SwitchQos.Proofs.MapEntry.Authoring

namespace SwitchQos

/-! Which attributes the objects of an authored entry have, and what is read from a table
that holds them. The fields of an entry are never an id, and each is kept under a path of
its own, so no field takes the place of another attribute. Reading goes through the fields
in declared order, which is the order in which they were given, and passes over those that
a partial entry leaves out. -/

namespace MapType

theorem has_of_mem_fields {mapType : MapType} {field : String}
    (declared : field ∈ mapType.fields) :
    (ObjectClass.mapEntry mapType).Has field := by
  have all : ∀ field ∈ mapType.fields, (ObjectClass.mapEntry mapType).Has field := by
    cases mapType <;> decide
  exact all field declared

end MapType

namespace TableAddress

variable {address : TableAddress} {fields : EntryFields} {object : StoreObject}

/-! ## The attributes of an entry -/

inductive Keeps (address : TableAddress) (fields : EntryFields) : String →
    StoreValue → Prop
  | id {id : Nat} (created : address.id = some id) :
      Keeps address fields "id" (Storage.uint64.word id)
  | switchId (legacy : address.mapType.isLegacy = true) :
      Keeps address fields "switch-id" (Storage.uint32.word address.switchId)
  | given {field text : String} {stored : StoreValue} (isGiven : (field, text) ∈ fields)
      (encoded : address.entryClass.encodeText field text = .ok stored) :
      Keeps address fields field stored

/-- The object of an entry: it has the attributes of the entry, each under its own path,
and no others. It says which table and which switch it belongs to, as no field can say. -/
structure IsEntry (address : TableAddress) (fields : EntryFields) (object : StoreObject) :
    Prop where
  classPath : object.classPath = address.entryClass.path
  plain : object.IsPlain
  attributes : ∀ path value, object.get? path = some value ↔
    ∃ attr, path = address.entryClass.pathOf attr ∧ address.Keeps fields attr value
  stored : ∀ field ∈ fields, ∃ stored,
    address.entryClass.encodeText field.1 field.2 = .ok stored
  apart : "id" ∉ fields.map (·.1) ∧ "switch-id" ∉ fields.map (·.1)
  id : ∃ id, address.id = some id ∧
  address.entryClass.decodeNat "id" object = .ok (some id)
  switchId : address.entryClass.decode "switch-id" object =
    .ok (if address.mapType.isLegacy then some (.uint address.switchId) else none)

private theorem keeps_iff_mem {id : Nat} (hasId : address.id = some id)
    {rows : List (String × StoreValue)}
    (related : List.Forall₂ (fun text row => row.1 = text.1 ∧
      address.entryClass.encodeText text.1 text.2 = .ok row.2) fields rows)
    {attr : String} {value : StoreValue} :
    (attr, value) ∈ rows.reverse ++ ("id", Storage.uint64.word id) :: address.base ↔
      address.Keeps fields attr value := by
  rw [List.mem_append, List.mem_reverse, List.mem_cons]
  constructor
  · rintro (own | isId | shared)
    · rcases Results.exists_left related own with ⟨text, isGiven, same, encoded⟩
      cases same
      exact .given isGiven encoded
    · cases isId
      exact .id hasId
    · rw [base] at shared
      split at shared
      · cases List.mem_singleton.mp shared
        exact .switchId ‹_›
      · cases shared
  · intro keeps
    cases keeps with
    | id created =>
        cases hasId.symm.trans created
        exact .inr (.inl rfl)
    | switchId legacy =>
        rw [base, if_pos legacy]
        exact .inr (.inr List.mem_cons_self)
    | given isGiven encoded =>
        rcases Results.exists_right related isGiven with ⟨row, member, same, written⟩
        rcases row with ⟨attr, value⟩
        cases same
        cases encoded.symm.trans written
        exact .inl member

theorem Keeps.has {attr : String} {value : StoreValue}
    (keeps : address.Keeps fields attr value) :
    address.entryClass.Has attr := by
  cases keeps with
  | id => exact has_id_entry
  | switchId => exact has_switchId_entry
  | given _ encoded =>
      rcases ObjectClass.encodeText_eq_ok_iff.mp encoded with ⟨value, parsed, -⟩
      exact ObjectClass.has_of_parseText parsed

theorem Keeps.origin {attr : String} {value : StoreValue}
    (keeps : address.Keeps fields attr value) :
    attr = "id" ∨ attr = "switch-id" ∧ address.mapType.isLegacy = true ∨
      attr ∈ fields.map (·.1) := by
  cases keeps with
  | id => exact .inl rfl
  | switchId legacy => exact .inr (.inl ⟨rfl, legacy⟩)
  | given isGiven _ => exact .inr (.inr (List.mem_map_of_mem isGiven))

private theorem decode_eq_none_of_not_keeps {attr : String}
    (has : address.entryClass.Has attr) (plain : object.IsPlain)
    (attributes : ∀ path value, object.get? path = some value ↔
      ∃ attr, path = address.entryClass.pathOf attr ∧ address.Keeps fields attr value)
    (unkept : ∀ value, ¬address.Keeps fields attr value) :
    address.entryClass.decode attr object = .ok none := by
  apply ObjectClass.decode_eq_none has
  rw [plain.lookup, Option.eq_none_iff_forall_ne_some]
  intro value kept
  rcases (attributes _ value).mp kept with ⟨other, samePath, keeps⟩
  cases ObjectClass.pathOf_injective has keeps.has samePath
  exact unkept value keeps

theorem isEntry_of_entryObject
    (ordered : (fields.map (·.1)).Sublist address.mapType.fields)
    (built : address.entryObject fields = .ok object) :
    address.IsEntry fields object := by
  have apart : "id" ∉ fields.map (·.1) ∧ "switch-id" ∉ fields.map (·.1) :=
    ⟨fun member => address.mapType.id_not_mem_fields (ordered.subset member),
      fun member => address.mapType.switchId_not_mem_fields (ordered.subset member)⟩
  cases hasId : address.id with
  | none => simp [entryObject, hasId] at built
  | some id =>
      rcases (entryObject_eq_ok_iff hasId).mp built with
        ⟨legacyFits, room, rows, related, rfl⟩
      rcases values_of_rows related with ⟨rowNames, hasRows, -⟩
      have attributes := fun path value =>
        @get?_entryRows_iff address id rows hasRows (rowNames ▸ ordered) path value
      simp only [keeps_iff_mem hasId related] at attributes
      have plain : (address.entryClass.assemble
          (rows.reverse ++ ("id", Storage.uint64.word id) :: address.base)).IsPlain :=
        ObjectClass.keyData_assemble
      have idFound : address.entryClass.spec? "id" =
        some (AttrSpec.scalar .uint64).inParent := rfl
      have switchFound :
          address.entryClass.spec? "switch-id" =
            some (AttrSpec.scalar .uint32).inParent := rfl
      refine ⟨ObjectClass.classPath_assemble, plain, attributes, ?_, apart,
        ⟨id, hasId, ?_⟩, ?_⟩
      · intro field isGiven
        rcases Results.exists_right related isGiven with ⟨row, -, -, encoded⟩
        exact ⟨row.2, encoded⟩
      · rw [ObjectClass.decodeNat_eq_some_iff idFound ⟨rfl, rfl⟩,
          ObjectClass.decode_uint_iff idFound ⟨rfl, rfl⟩, plain.lookup]
        exact ⟨room, (attributes _ _).mpr ⟨"id", rfl, .id hasId⟩⟩
      · cases legacy : address.mapType.isLegacy with
        | true =>
            rw [if_pos rfl, ObjectClass.decode_uint_iff switchFound
              ⟨rfl, rfl⟩, plain.lookup]
            exact ⟨legacyFits legacy,
              (attributes _ _).mpr ⟨"switch-id", rfl, .switchId legacy⟩⟩
        | false =>
            rw [if_neg Bool.false_ne_true]
            refine decode_eq_none_of_not_keeps has_switchId_entry plain attributes ?_
            intro value keeps
            rcases keeps.origin with same | ⟨-, isLegacy⟩ | isGiven
            · exact absurd same (by decide)
            · cases legacy.symm.trans isLegacy
            · exact apart.2 isGiven

/-! ## Reading -/

theorem IsEntry.decodeEntry (isEntry : address.IsEntry fields object)
    (ordered : (fields.map (·.1)).Sublist address.mapType.fields) :
    ∃ row, address.decodeEntry object = .ok row ∧ row.tableId = address.id ∧
      address.mapType.authoredValues fields = .ok row.fields := by
  rcases isEntry.id with ⟨id, hasId, readId⟩
  have parse : ∀ field ∈ fields, ∃ row : String × AttrValue,
      ((ObjectClass.mapEntry address.mapType).parseText field.1 field.2).map
        (fun value => (field.1, value)) = .ok row := by
    intro field isGiven
    rcases isEntry.stored field isGiven with ⟨stored, encoded⟩
    rcases ObjectClass.encodeText_eq_ok_iff.mp encoded with ⟨value, parsed, -⟩
    exact ⟨_, Results.map_eq_ok_iff.mpr ⟨value, parsed, rfl⟩⟩
  rcases Results.exists_mapM parse with ⟨values, parses, members⟩
  have names := MapType.names_of_authoredValues parses
  have readFields : address.decodeFields object address.mapType.fields = .ok values := by
    refine decodeFields_of_decode address.mapType.fields_nodup (names ▸ ordered)
      (fun row member => ?_) (fun field declared unread => ?_)
    · rcases (members row).mp member with ⟨field, isGiven, made⟩
      rcases Results.map_eq_ok_iff.mp made with ⟨value, parsed, rfl⟩
      rcases isEntry.stored field isGiven with ⟨stored, encoded⟩
      rcases ObjectClass.encodeText_eq_ok_iff.mp encoded with
        ⟨other, otherParsed, written⟩
      cases otherParsed.symm.trans parsed
      refine (ObjectClass.decode_parsed_iff parsed).mpr ⟨stored, ?_, written⟩
      rw [isEntry.plain.lookup]
      exact (isEntry.attributes _ _).mpr ⟨field.1, rfl, .given isGiven encoded⟩
    · refine decode_eq_none_of_not_keeps
        (MapType.has_of_mem_fields declared) isEntry.plain isEntry.attributes ?_
      intro value keeps
      rcases keeps.origin with rfl | ⟨rfl, -⟩ | isGiven
      · exact address.mapType.id_not_mem_fields declared
      · exact address.mapType.switchId_not_mem_fields declared
      · exact unread (names ▸ isGiven)
  refine ⟨⟨some id, values⟩, ?_, hasId.symm, parses⟩
  rw [TableAddress.decodeEntry, readId, Results.ok_bind, readFields, Results.ok_bind]

theorem decodeEntries_of_isEntry {expanded : List EntryFields}
    {objects : List StoreObject} (entries : List.Forall₂ address.IsEntry expanded objects)
    (ordered : ∀ fields ∈ expanded, (fields.map (·.1)).Sublist address.mapType.fields)
    {table : StoreObject}
    (holds : table.lookup (address.tableClass.pathOf "entry") = some (.entries objects)) :
    ∃ decoded, address.decodeEntries table = .ok decoded ∧
      List.Forall₂ (fun fields row => row.tableId = address.id ∧
        address.mapType.authoredValues fields = .ok row.fields) expanded decoded := by
  have found : address.tableClass.spec? "entry" = some .entries := rfl
  have read : address.tableClass.decode "entry" table = .ok (some (.objects objects)) :=
    (ObjectClass.decode_eq_some_iff found).mpr ⟨_, holds, rfl, rfl⟩
  rw [decodeEntries, read, Results.ok_bind]
  clear holds read
  induction entries with
  | nil => exact ⟨[], rfl, .nil⟩
  | cons first _ induction =>
      rw [List.forall_mem_cons] at ordered
      rcases first.decodeEntry ordered.1 with ⟨row, isRead, rowOf⟩
      rcases induction ordered.2 with ⟨others, areRead, othersOf⟩
      refine ⟨row :: others, ?_, .cons rowOf othersOf⟩
      exact Results.mapM_eq_ok_iff.mpr (.cons isRead (Results.mapM_eq_ok_iff.mp areRead))

theorem exists_isEntry {entry : AuthoredEntry} {range : Option IntRange}
    {arity : EntryArity} {objects : List StoreObject}
    (built : address.entryObjects entry range arity = .ok objects) :
    ∃ expanded, entry.expand address.mapType range arity = .ok expanded ∧
      (∀ fields ∈ expanded, (fields.map (·.1)).Sublist address.mapType.fields) ∧
      List.Forall₂ address.IsEntry expanded objects := by
  rw [entryObjects, Results.bind_eq_ok_iff] at built
  rcases built with ⟨expanded, expands, built⟩
  have ordered : ∀ fields ∈ expanded, (fields.map (·.1)).Sublist address.mapType.fields :=
    fun fields member => (AuthoredEntry.fields_of_expand expands fields member).1
  refine ⟨expanded, expands, ordered,
    ((List.forall₂_and_left _ _).mpr ⟨ordered, Results.mapM_eq_ok_iff.mp built⟩).imp ?_⟩
  exact fun fields object both => isEntry_of_entryObject both.1 both.2

/-- The objects of an authored entry, one for every entry that it stands for, have exactly
the ids of their table and the fields that the entry gives; and a table that holds these
objects is read as these entries, in order, with the values that their texts stand for. -/
theorem entryObjects_read_back {entry : AuthoredEntry} {range : Option IntRange}
    {arity : EntryArity} {objects : List StoreObject}
    (built : address.entryObjects entry range arity = .ok objects) :
    ∃ expanded, entry.expand address.mapType range arity = .ok expanded ∧
      (∀ fields ∈ expanded,
        fields.map (·.1) = (entry.given address.mapType).map (·.1)) ∧
      List.Forall₂ address.IsEntry expanded objects ∧
      ∀ table : StoreObject,
        table.lookup (address.tableClass.pathOf "entry") = some (.entries objects) →
        ∃ decoded, address.decodeEntries table = .ok decoded ∧
          List.Forall₂ (fun fields row => row.tableId = address.id ∧
            address.mapType.authoredValues fields = .ok row.fields) expanded decoded := by
  rcases exists_isEntry built with ⟨expanded, expands, ordered, entries⟩
  exact ⟨expanded, expands, AuthoredEntry.names_eq_given_of_expand expands, entries,
    fun table holds => decodeEntries_of_isEntry entries ordered holds⟩

/-- A key that is a wildcard and may be negative, with no value given for it. -/
theorem entryObjects_read_back_signed :
    let address : TableAddress := ⟨.priorityGroupToPfcPriority, 3, some 9⟩
    ∃ objects,
      address.entryObjects (.positional ["all"]) (some ⟨-1, 0⟩) .keys = .ok objects ∧
      ∀ table : StoreObject,
        table.lookup (address.tableClass.pathOf "entry") = some (.entries objects) →
        address.decodeEntries table =
          .ok [⟨some 9, [("priority-group", .int (-1))]⟩,
            ⟨some 9, [("priority-group", .int 0)]⟩] := by
  intro address
  have builds : (address.entryObjects (.positional ["all"]) (some ⟨-1, 0⟩) .keys).isOk =
      true := by
    decide +kernel
  have built := Results.eq_ok_getD builds []
  refine ⟨_, built, fun table holds => ?_⟩
  rcases entryObjects_read_back built with ⟨expanded, expands, -, -, reads⟩
  have entries : AuthoredEntry.expand (.positional ["all"]) address.mapType
    (some ⟨-1, 0⟩) .keys =
      .ok [[("priority-group", "-1")], [("priority-group", "0")]] := by decide +kernel
  cases expands.symm.trans entries
  rcases reads table holds with ⟨decoded, read, rows⟩
  have below : address.mapType.authoredValues [("priority-group", "-1")] =
      .ok [("priority-group", .int (-1))] := by decide +kernel
  have zero : address.mapType.authoredValues [("priority-group", "0")] =
      .ok [("priority-group", .int 0)] := by decide +kernel
  rcases List.forall₂_cons_left_iff.mp rows with ⟨⟨_, _⟩, _, ⟨rfl, first⟩, others, rfl⟩
  rcases List.forall₂_cons_left_iff.mp others with ⟨⟨_, _⟩, _, ⟨rfl, second⟩, none, rfl⟩
  cases none
  cases first.symm.trans below
  cases second.symm.trans zero
  exact read

end TableAddress

end SwitchQos
