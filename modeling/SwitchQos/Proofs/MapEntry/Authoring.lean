import SwitchQos.MapEntry.Objects
import SwitchQos.Proofs.MapEntry.Expansion
import SwitchQos.Proofs.Object.KeyData
import SwitchQos.Proofs.Object.Provisioned
import SwitchQos.Proofs.Store.Entities

namespace SwitchQos

/-! What an authored entry means: a value for every field of the map type. The
object that is stored for an entry reads back as these values, and two entries have
the same key in the store exactly when they have the same values in their key
fields. -/

namespace MapType

theorem id_not_mem_fields (mapType : MapType) : "id" ∉ mapType.fields := by
  cases mapType <;> simp [fields, keyFields, valueFields]

theorem switchId_not_mem_fields (mapType : MapType) : "switch-id" ∉ mapType.fields := by
  cases mapType <;> decide

def keyOf (mapType : MapType) (values : List (String × AttrValue)) :
    List (Option AttrValue) :=
  mapType.keyFields.map fun field => Directory.findRow field values

def targetOf (mapType : MapType) (values : List (String × AttrValue)) :
    List (Option AttrValue) :=
  mapType.valueFields.map fun field => Directory.findRow field values

def authoredValues (mapType : MapType) (fields : EntryFields) :
    Except CodecError (List (String × AttrValue)) :=
  fields.mapM fun field =>
    ((ObjectClass.mapEntry mapType).parseText field.1 field.2).map fun value =>
      (field.1, value)

end MapType

theorem MapType.names_of_authoredValues {mapType : MapType} {fields : EntryFields}
    {values : List (String × AttrValue)}
    (parses : mapType.authoredValues fields = .ok values) :
    values.map (·.1) = fields.map (·.1) := by
  rw [← List.forall₂_eq_eq_eq, List.forall₂_map_left_iff, List.forall₂_map_right_iff]
  refine (Results.mapM_eq_ok_iff.mp parses).flip.imp fun value field parsed => ?_
  rcases Results.map_eq_ok_iff.mp parsed with ⟨_, -, rfl⟩
  rfl

/-! ## Tables and entries -/

namespace TableAddress

variable {address : TableAddress} {fields : EntryFields} {object : StoreObject}

/-- What tables and entries of the type carry besides their ids. -/
def base (address : TableAddress) : List (String × StoreValue) :=
  if address.mapType.isLegacy then
    [("switch-id", Storage.uint32.word address.switchId)] else []

theorem mem_base {row : String × StoreValue} (member : row ∈ address.base) :
    row.1 = "switch-id" := by
  rw [base] at member
  split at member
  · rw [List.mem_singleton.mp member]
  · cases member

theorem start_eq_ok_iff {objectClass : ObjectClass} {result : Authored} :
    address.start objectClass = .ok result ↔
      (address.mapType.isLegacy = true → address.switchId < countOfBits 32) ∧
        result = .assembled objectClass address.base := by
  rcases objectClass.spec?_switchId with ⟨scope, found⟩
  cases legacy : address.mapType.isLegacy with
  | true =>
      simp only [start, base, legacy, if_true, Authored.new_eq, true_imp_iff,
        Authored.set_uint_eq_ok_iff found ⟨rfl, rfl⟩]
      rfl
  | false => simp [start, base, legacy, Authored.new_eq, eq_comm]

theorem tableObject_eq_ok_iff :
    address.tableObject = .ok object ↔
      (address.mapType.isLegacy = true → address.switchId < countOfBits 32) ∧
        (∀ id, address.id = some id → id < countOfBits 64) ∧
        object = address.tableClass.assemble
          ((address.id.map fun id => ("id", Storage.uint64.word id)).toList ++
            address.base) := by
  have found : address.tableClass.spec? "id" = some (.scalar .uint64) := rfl
  simp only [tableObject, Results.bind_eq_ok_iff, start_eq_ok_iff, and_assoc,
    exists_and_left, exists_eq_left]
  apply and_congr_right
  intro _
  cases address.id with
  | none => simp [eq_comm]
  | some id =>
      simp only [Results.map_eq_ok_iff, Authored.set_uint_eq_ok_iff found ⟨rfl, rfl⟩,
        Option.some.injEq, forall_eq']
      constructor
      · rintro ⟨_, ⟨fits, rfl⟩, rfl⟩
        exact ⟨fits, rfl⟩
      · rintro ⟨fits, rfl⟩
        exact ⟨_, ⟨fits, rfl⟩, rfl⟩

/-- The attributes of an entry, written in the order of its fields. -/
theorem entryObject_eq_ok_iff {id : Nat} (hasId : address.id = some id) :
    address.entryObject fields = .ok object ↔
      (address.mapType.isLegacy = true → address.switchId < countOfBits 32) ∧
        id < countOfBits 64 ∧
        ∃ rows, List.Forall₂ (fun text row => row.1 = text.1 ∧
            address.entryClass.encodeText text.1 text.2 = .ok row.2) fields rows ∧
          object = address.entryClass.assemble
            (rows.reverse ++ ("id", Storage.uint64.word id) :: address.base) := by
  have found : address.entryClass.spec? "id" =
    some (AttrSpec.scalar .uint64).inParent := rfl
  simp only [entryObject, hasId, Results.bind_eq_ok_iff, start_eq_ok_iff, and_assoc,
    exists_and_left, exists_eq_left, Authored.set_uint_eq_ok_iff found ⟨rfl, rfl⟩,
    Results.map_eq_ok_iff]
  refine and_congr_right fun _ => and_congr_right fun _ => ?_
  constructor
  · rintro ⟨_, written, rfl⟩
    rcases Authored.setTexts_eq_ok_iff.mp written with ⟨rows, related, rfl⟩
    exact ⟨rows, related, rfl⟩
  · rintro ⟨rows, related, rfl⟩
    exact ⟨_, Authored.setTexts_eq_ok_iff.mpr ⟨rows, related, rfl⟩, rfl⟩

structure Stores (address : TableAddress) (id : Nat) (values : List (String × AttrValue))
    (object : StoreObject) : Prop where
  classPath : object.classPath = address.entryClass.path
  plain : object.IsPlain
  names : values.map (·.1) = address.mapType.fields
  room : id < countOfBits 64
  id : object.get? (address.entryClass.pathOf "id") = some (Storage.uint64.word id)
  value : ∀ row ∈ values, ∃ stored,
    object.get? (address.entryClass.pathOf row.1) = some stored ∧
    address.entryClass.encode row.1 row.2 = .ok stored ∧
    address.entryClass.decode row.1 object = .ok (some row.2)

/-- What an object says about an entry that it is submitted for: the id of the table, and
a stored form for every value that is given. The key fields are always given. -/
structure Carries (address : TableAddress) (id : Nat) (values : List (String × AttrValue))
    (object : StoreObject) : Prop where
  classPath : object.classPath = address.entryClass.path
  plain : object.IsPlain
  names : (values.map (·.1)).Sublist address.mapType.fields
  keyed : ∀ field ∈ address.mapType.keyFields, field ∈ values.map (·.1)
  room : id < countOfBits 64
  id : object.get? (address.entryClass.pathOf "id") = some (Storage.uint64.word id)
  value : ∀ row ∈ values, ∃ stored,
    object.get? (address.entryClass.pathOf row.1) = some stored ∧
    address.entryClass.encode row.1 row.2 = .ok stored ∧
    address.entryClass.decode row.1 object = .ok (some row.2)

theorem Stores.carries {id : Nat} {values : List (String × AttrValue)}
    (stores : address.Stores id values object) : address.Carries id values object where
  classPath := stores.classPath
  plain := stores.plain
  names := by rw [stores.names]
  keyed := by
    intro field isKey
    rw [stores.names]
    exact MapType.mem_fields_of_mem_keyFields isKey
  room := stores.room
  id := stores.id
  value := stores.value

theorem Carries.stores {id : Nat} {values : List (String × AttrValue)}
    (carries : address.Carries id values object)
    (names : values.map (·.1) = address.mapType.fields) :
    address.Stores id values object :=
  ⟨carries.classPath, carries.plain, names, carries.room, carries.id, carries.value⟩

theorem has_id_entry : address.entryClass.Has "id" := by
  rw [ObjectClass.Has]
  rfl

theorem has_switchId_entry : address.entryClass.Has "switch-id" := by
  rw [ObjectClass.Has]
  rfl

theorem values_of_rows {rows : List (String × StoreValue)}
    (related : List.Forall₂ (fun text row => row.1 = text.1 ∧
      address.entryClass.encodeText text.1 text.2 = .ok row.2) fields rows) :
    rows.map (·.1) = fields.map (·.1) ∧ (∀ row ∈ rows, address.entryClass.Has row.1) ∧
      ∃ values, address.mapType.authoredValues fields = .ok values ∧
        values.map (·.1) = fields.map (·.1) ∧
        ∀ value ∈ values, ∃ text stored, (value.1, stored) ∈ rows ∧
          address.entryClass.parseText value.1 text = .ok value.2 ∧
          address.entryClass.encode value.1 value.2 = .ok stored := by
  induction related with
  | nil => exact ⟨rfl, by simp, [], rfl, rfl, by simp⟩
  | @cons text row texts rows first _ induction =>
      rcases row with ⟨attr, stored⟩
      rcases first with ⟨rfl, encoded⟩
      rcases ObjectClass.encodeText_eq_ok_iff.mp encoded with ⟨value, parsed, stores⟩
      rcases induction with ⟨rowNames, hasAll, values, parses, valueNames, each⟩
      refine ⟨by simp [rowNames], ?_, (text.1, value) :: values,
        ?_, by simp [valueNames], ?_⟩
      · intro row member
        rcases List.mem_cons.mp member with rfl | later
        · exact ObjectClass.has_of_parseText parsed
        · exact hasAll row later
      · refine Results.mapM_eq_ok_iff.mpr (.cons ?_ (Results.mapM_eq_ok_iff.mp parses))
        exact Results.map_eq_ok_iff.mpr ⟨value, parsed, rfl⟩
      · intro given member
        rcases List.mem_cons.mp member with rfl | later
        · exact ⟨text.2, stored, List.mem_cons_self, parsed, stores⟩
        · rcases each given later with ⟨otherText, otherStored, inRows, rest⟩
          exact ⟨otherText, otherStored, List.mem_cons_of_mem _ inRows, rest⟩

/-- The rows of an entry are apart from the ids that come before them, so its object has
every row under the path of its attribute, and nothing else. -/
theorem get?_entryRows_iff {id : Nat} {rows : List (String × StoreValue)}
    (hasRows : ∀ row ∈ rows, address.entryClass.Has row.1)
    (ordered : (rows.map (·.1)).Sublist address.mapType.fields) {path : String}
    {value : StoreValue} :
    (address.entryClass.assemble
        (rows.reverse ++ ("id", Storage.uint64.word id) :: address.base)).get?
          path = some value ↔
      ∃ attr, path = address.entryClass.pathOf attr ∧
        (attr, value) ∈ rows.reverse ++ ("id", Storage.uint64.word id) ::
          address.base := by
  apply ObjectClass.get?_assemble_iff
  · intro row member
    rcases List.mem_append.mp member with own | shared
    · exact hasRows row (List.mem_reverse.mp own)
    · rcases List.mem_cons.mp shared with rfl | base
      · exact has_id_entry
      · rw [mem_base base]
        exact has_switchId_entry
  · have shared : ((("id", Storage.uint64.word id) :: address.base).map (·.1)).Nodup := by
      rw [base]
      split <;> simp
    rw [List.map_append, List.map_reverse, List.nodup_append]
    refine ⟨List.nodup_reverse.mpr
      (address.mapType.fields_nodup.sublist ordered), shared, ?_⟩
    rintro field own other isShared rfl
    have declared := ordered.subset (List.mem_reverse.mp own)
    rcases List.mem_map.mp isShared with ⟨row, member, rfl⟩
    rcases List.mem_cons.mp member with rfl | base
    · exact address.mapType.id_not_mem_fields declared
    · exact address.mapType.switchId_not_mem_fields (mem_base base ▸ declared)

theorem carries_of_entryObject {id : Nat} (hasId : address.id = some id)
    (ordered : (fields.map (·.1)).Sublist address.mapType.fields)
    (keyed : ∀ field ∈ address.mapType.keyFields, field ∈ fields.map (·.1))
    (built : address.entryObject fields = .ok object) :
    ∃ values, address.mapType.authoredValues fields = .ok values ∧
      values.map (·.1) = fields.map (·.1) ∧ address.Carries id values object := by
  rcases (entryObject_eq_ok_iff hasId).mp built with ⟨-, room, rows, related, rfl⟩
  rcases values_of_rows related with ⟨rowNames, hasRows, values, parses, valueNames, each⟩
  have kept := @get?_entryRows_iff address id rows hasRows (rowNames ▸ ordered)
  rw [← valueNames] at ordered keyed
  have plain : (address.entryClass.assemble
      (rows.reverse ++ ("id", Storage.uint64.word id) :: address.base)).IsPlain :=
    ObjectClass.keyData_assemble
  refine ⟨values, parses, valueNames, ObjectClass.classPath_assemble, plain,
    ordered, keyed, room, ?_, ?_⟩
  · exact kept.mpr ⟨"id", rfl, List.mem_append_right _ List.mem_cons_self⟩
  · intro value member
    rcases each value member with ⟨text, stored, inRows, parsed, encoded⟩
    have keptValue := kept.mpr
      ⟨value.1, rfl, List.mem_append_left _ (List.mem_reverse.mpr inRows)⟩
    refine ⟨stored, keptValue, encoded,
      (ObjectClass.decode_parsed_iff parsed).mpr ⟨stored, ?_, encoded⟩⟩
    rw [StoreObject.IsPlain.lookup plain, keptValue]

theorem stores_of_entryObject {id : Nat} (hasId : address.id = some id)
    (names : fields.map (·.1) = address.mapType.fields)
    (built : address.entryObject fields = .ok object) :
    ∃ values, address.mapType.authoredValues fields = .ok values ∧
      address.Stores id values object := by
  have keyed : ∀ field ∈ address.mapType.keyFields, field ∈ fields.map (·.1) := by
    intro field isKey
    rw [names]
    exact MapType.mem_fields_of_mem_keyFields isKey
  rcases carries_of_entryObject hasId (by rw [names]) keyed built with
      ⟨values, parses, valueNames, carries⟩
  exact ⟨values, parses, carries.stores (valueNames.trans names)⟩

theorem exists_entryObject {id : Nat} (hasId : address.id = some id)
    (room : id < countOfBits 64)
    (legacyFits : address.mapType.isLegacy = true → address.switchId < countOfBits 32)
    {values : List (String × AttrValue)}
    (parses : address.mapType.authoredValues fields = .ok values)
    (encodes : ∀ value ∈ values, ∃ stored,
      address.entryClass.encode value.1 value.2 = .ok stored) :
    ∃ object, address.entryObject fields = .ok object := by
  have rows : ∃ rows : List (String × StoreValue), List.Forall₂ (fun text row =>
      row.1 = text.1 ∧ address.entryClass.encodeText text.1 text.2 = .ok row.2)
        fields rows := by
    have related := Results.mapM_eq_ok_iff.mp parses
    clear parses
    induction related with
    | nil => exact ⟨[], .nil⟩
    | @cons text value _ _ first _ induction =>
        rcases Results.map_eq_ok_iff.mp first with ⟨parsed, parsedText, rfl⟩
        rcases encodes _ List.mem_cons_self with ⟨stored, encoded⟩
        rcases induction fun value member =>
          encodes value (List.mem_cons_of_mem _ member) with ⟨rows, related⟩
        exact ⟨(text.1, stored) :: rows, .cons
          ⟨rfl, ObjectClass.encodeText_eq_ok_iff.mpr
            ⟨parsed, parsedText, encoded⟩⟩ related⟩
  rcases rows with ⟨rows, related⟩
  exact ⟨_, (entryObject_eq_ok_iff hasId).mpr ⟨legacyFits, room, rows, related, rfl⟩⟩

/-! ## Reading an entry -/

variable {id : Nat} {values : List (String × AttrValue)}

/-- The fields that an object has are read in declared order, and the others are passed
over. -/
theorem decodeFields_of_decode {names : List String} (distinct : names.Nodup)
    (ordered : (values.map (·.1)).Sublist names)
    (each : ∀ row ∈ values, address.entryClass.decode row.1 object = .ok (some row.2))
    (absent : ∀ field ∈ names, field ∉ values.map (·.1) →
      address.entryClass.decode field object = .ok none) :
    address.decodeFields object names = .ok values := by
  induction names generalizing values with
  | nil =>
      rw [List.sublist_nil, List.map_eq_nil_iff] at ordered
      rw [ordered]
      rfl
  | cons field rest induction =>
      rw [List.nodup_cons] at distinct
      rcases List.sublist_cons_iff.mp ordered with later | ⟨names, split, later⟩
      · have unread := absent field List.mem_cons_self fun member =>
          distinct.1 (later.subset member)
        have others := induction distinct.2 later each fun other member =>
          absent other (List.mem_cons_of_mem _ member)
        rw [decodeFields, unread, others]
        rfl
      · rcases List.map_eq_cons_iff.mp split with ⟨row, others, rfl, rfl, rfl⟩
        have decoded : address.decodeFields object rest = .ok others := by
          refine induction distinct.2 later
            (fun other member => each other (List.mem_cons_of_mem _ member)) ?_
          intro other member unread
          refine absent other (List.mem_cons_of_mem _ member) fun given => ?_
          rcases List.mem_cons.mp given with rfl | isLater
          · exact distinct.1 member
          · exact unread isLater
        rw [decodeFields, each row List.mem_cons_self, decoded]
        rfl

theorem Stores.decodeEntry (stores : address.Stores id values object) :
    address.decodeEntry object = .ok ⟨some id, values⟩ := by
  have found : address.entryClass.spec? "id" =
    some (AttrSpec.scalar .uint64).inParent := rfl
  have readId : address.entryClass.decodeNat "id" object = .ok (some id) := by
    rw [ObjectClass.decodeNat_eq_some_iff found ⟨rfl, rfl⟩,
      ObjectClass.decode_uint_iff found ⟨rfl, rfl⟩, stores.plain.lookup]
    exact ⟨stores.room, stores.id⟩
  have readFields : address.decodeFields object address.mapType.fields = .ok values := by
    refine decodeFields_of_decode address.mapType.fields_nodup (by rw [stores.names])
      (fun row member => ?_) (fun field declared unread => ?_)
    · rcases stores.value row member with ⟨-, -, -, decoded⟩
      exact decoded
    · exact absurd (stores.names ▸ declared) unread
  rw [TableAddress.decodeEntry, readId, Results.ok_bind, readFields, Results.ok_bind]

/-- An entry that takes over the values of a full one holds these, and nothing is left of
its own. -/
theorem Stores.mergedInto {earlier : StoreObject}
    (stores : address.Stores id values object)
    (isOf : earlier.classPath = address.entryClass.path) (plain : earlier.IsPlain) :
    address.Stores id values (earlier.mergeFrom object) where
  classPath := isOf
  plain := plain.mergeFrom object
  names := stores.names
  room := stores.room
  id := by
    rw [stores.plain.get?_mergeFrom, stores.id, Option.some_or]
  value := by
    intro row member
    rcases stores.value row member with ⟨stored, kept, encoded, decoded⟩
    have taken : (earlier.mergeFrom object).get? (address.entryClass.pathOf row.1) =
        some stored := by
      rw [stores.plain.get?_mergeFrom, kept, Option.some_or]
    refine ⟨stored, taken, encoded, ?_⟩
    rw [← decoded]
    apply ObjectClass.decode_congr
    rw [(plain.mergeFrom object).lookup, taken, stores.plain.lookup, kept]

/-! ## Keys -/

theorem Carries.findRow (carries : address.Carries id values object) {field : String}
    (isKey : field ∈ address.mapType.keyFields) :
    ∃ value stored, Directory.findRow field values = some value ∧
      object.get? (address.entryClass.pathOf field) = some stored ∧
      address.entryClass.encode field value = .ok stored ∧
      address.entryClass.decode field object = .ok (some value) := by
  rcases List.mem_map.mp (carries.keyed field isKey) with ⟨row, member, rfl⟩
  rcases carries.value row member with ⟨stored, kept, encoded, decoded⟩
  have distinct : (values.map (·.1)).Nodup :=
    address.mapType.fields_nodup.sublist carries.names
  exact ⟨row.2, stored, Directory.findRow_of_mem distinct member, kept, encoded, decoded⟩

theorem Carries.identity?_isSome (carries : address.Carries id values object) :
    ∃ key, address.entryClass.identity? object = some key := by
  apply ObjectClass.exists_identity?
  intro attr isKey
  rw [carries.plain.lookup]
  have keys : address.entryClass.keyAttrs = "id" :: address.mapType.keyFields := rfl
  rw [keys] at isKey
  rcases List.mem_cons.mp isKey with rfl | isField
  · simp [carries.id]
  · rcases carries.findRow isField with ⟨value, stored, -, kept, -⟩
    simp [kept]

theorem Carries.identity?_eq_iff {otherValues : List (String × AttrValue)}
    {other : StoreObject} (carries : address.Carries id values object)
    (otherCarries : address.Carries id otherValues other) :
    address.entryClass.identity? object = address.entryClass.identity? other ↔
      address.mapType.keyOf values = address.mapType.keyOf otherValues := by
  rw [MapType.keyOf, MapType.keyOf, List.map_inj_left]
  have keys : address.entryClass.keyAttrs = "id" :: address.mapType.keyFields := rfl
  constructor
  · intro same field isKey
    rcases carries.identity?_isSome with ⟨key, identified⟩
    have otherIdentified := same ▸ identified
    have sameStored := ObjectClass.lookup_eq_of_identity?_eq identified otherIdentified
      (keys ▸ List.mem_cons_of_mem _ isKey)
    rcases carries.findRow isKey with ⟨value, stored, found, -, -, decoded⟩
    rcases otherCarries.findRow isKey with ⟨otherValue, -, otherFound, -, -, otherDecoded⟩
    rw [ObjectClass.decode_congr sameStored, otherDecoded, Except.ok.injEq] at decoded
    rw [found, otherFound, decoded]
  · intro same
    refine ObjectClass.identity?_congr fun attr isKey => ?_
    rw [carries.plain.lookup, otherCarries.plain.lookup]
    rw [keys] at isKey
    rcases List.mem_cons.mp isKey with rfl | isField
    · rw [carries.id, otherCarries.id]
    · rcases carries.findRow isField with ⟨value, stored, found, kept, encoded, -⟩
      rcases otherCarries.findRow isField with
          ⟨otherValue, otherStored, otherFound, otherKept, otherEncoded, -⟩
      have sameValue := same attr isField
      rw [found, otherFound, Option.some.injEq] at sameValue
      rw [sameValue, otherEncoded] at encoded
      rw [kept, otherKept, Except.ok.inj encoded]

theorem Carries.addressed_iff {otherValues : List (String × AttrValue)}
    {other : StoreObject} (carries : address.Carries id values object)
    (otherCarries : address.Carries id otherValues other) :
    Contents.addressed address.entryClass other object = true ↔
      address.mapType.keyOf values = address.mapType.keyOf otherValues := by
  rcases carries.identity?_isSome with ⟨key, identified⟩
  rw [← carries.identity?_eq_iff otherCarries, Contents.addressed_iff, identified]
  constructor
  · rintro ⟨otherKey, otherIdentified, found⟩
    rw [StoreObject.entity?_eq_some_iff, identified] at found
    rw [otherIdentified, found.2]
  · intro same
    exact ⟨key, same.symm, StoreObject.entity?_eq_some_iff.mpr
      ⟨carries.classPath, identified⟩⟩

theorem pairwise_addressed_iff {authored : List (List (String × AttrValue))}
    {entries : List StoreObject}
    (stores : List.Forall₂ (address.Stores id) authored entries) :
    entries.Pairwise (fun earlier later =>
      ¬Contents.addressed address.entryClass later earlier = true) ↔
      (authored.map address.mapType.keyOf).Nodup := by
  induction stores with
  | nil => simp
  | @cons values entry rest others first later induction =>
      rw [List.pairwise_cons, List.map_cons, List.nodup_cons]
      refine and_congr ?_ induction
      clear induction
      induction later with
      | nil => simp
      | @cons otherValues other _ _ second _ induction =>
          rw [List.forall_mem_cons, induction, first.carries.addressed_iff second.carries,
            List.map_cons, List.mem_cons, not_or]

theorem addressed_apart_of_nodup {rows : List (List (String × AttrValue))}
    {entries : List StoreObject} (stores : List.Forall₂ (address.Stores id) rows entries)
    (distinct : (rows.map address.mapType.keyOf).Nodup)
    (carries : address.Carries id values object) :
    entries.Pairwise fun left right =>
      Contents.addressed address.entryClass object left = true →
        ¬Contents.addressed address.entryClass object right = true := by
  induction stores with
  | nil => exact .nil
  | @cons row entry _ _ first others induction =>
      rw [List.map_cons, List.nodup_cons] at distinct
      refine .cons (fun other member hit otherHit => distinct.1 ?_) (induction distinct.2)
      rcases Results.exists_left others member with ⟨otherRow, isRow, otherStores⟩
      have sameKey := (first.carries.addressed_iff carries).mp hit
      have otherKey := (otherStores.carries.addressed_iff carries).mp otherHit
      rw [sameKey.trans otherKey.symm]
      exact List.mem_map_of_mem isRow

end TableAddress

end SwitchQos
