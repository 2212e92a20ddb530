import SwitchQos.Proofs.MapEntry.Nodes
import SwitchQos.Proofs.Provision.Tasks
import SwitchQos.Proofs.Store.EntryBatches
import SwitchQos.Provision.Run

namespace SwitchQos

/-! What a run does to the store for one map node: it creates the table and then all
entries in one batch, and what is stored for the table afterwards can be read back.
The store is one without failure rules. -/

/-- The next id is free for a table of the type: no table and no entry carries it,
neither itself nor in its key data. -/
structure Contents.FreshFor (contents : Contents) (mapType : MapType) : Prop where
  room : contents.nextId < countOfBits 64
  free : ∀ stored ∈ contents.objects,
    stored.classPath = (ObjectClass.mapTable mapType).path ∨
      stored.classPath = (ObjectClass.mapEntry mapType).path →
    stored.lookup ((ObjectClass.mapTable mapType).pathOf "id") ≠
        some (Storage.uint64.word contents.nextId) ∧
      stored.get? ((ObjectClass.mapTable mapType).pathOf "id") ≠
        some (Storage.uint64.word contents.nextId)

namespace MapTable

def object (table : MapTable) : StoreObject :=
  (ObjectClass.mapTable table.mapType).assemble
    (("id", Storage.uint64.word table.id) :: table.address.base)

/-- The object that is submitted for a table, before the store has assigned an id. -/
def request (table : MapTable) : StoreObject :=
  (ObjectClass.mapTable table.mapType).assemble table.address.base

variable {table : MapTable}

theorem hasAll_object :
    ∀ row ∈ ("id", Storage.uint64.word table.id) :: table.address.base,
      (ObjectClass.mapTable table.mapType).Has row.1 := by
  intro row member
  rw [ObjectClass.Has]
  rcases List.mem_cons.mp member with rfl | base
  · rfl
  · rw [TableAddress.mem_base base]
    rfl

theorem classPath_request :
    table.request.classPath = (ObjectClass.mapTable table.mapType).path :=
  ObjectClass.classPath_assemble

theorem classPath_object :
    table.object.classPath = (ObjectClass.mapTable table.mapType).path :=
  ObjectClass.classPath_assemble

theorem isPlain_object : table.object.IsPlain := ObjectClass.keyData_assemble

theorem get?_id_object :
    table.object.get? ((ObjectClass.mapTable table.mapType).pathOf "id") =
      some (Storage.uint64.word table.id) := StoreObject.get?_insert_self _ _ _

theorem get?_id_request :
    table.request.get? ((ObjectClass.mapTable table.mapType).pathOf "id") = none := by
  apply ObjectClass.get?_assemble_of_ne
  intro row member
  rw [TableAddress.mem_base member]
  exact ObjectClass.pathOf_ne (by rw [ObjectClass.Has]; rfl)
    (by rw [ObjectClass.Has]; rfl) (by simp)

theorem nodup_object :
    ((("id", Storage.uint64.word table.id) :: table.address.base).map (·.1)).Nodup := by
  rw [TableAddress.base]
  split <;> simp

theorem id_of_agreesWith {stored : StoreObject}
    (agrees : stored.agreesWith table.object = true) :
    stored.get? ((ObjectClass.mapTable table.mapType).pathOf "id") =
      some (Storage.uint64.word table.id) := by
  rw [object, ObjectClass.agreesWith_assemble stored hasAll_object
    nodup_object, List.all_cons,
    Bool.and_eq_true, ObjectClass.agrees_word, decide_eq_true_eq] at agrees
  exact agrees.1

theorem agreesWith_object_self : table.object.agreesWith table.object = true := by
  rw [object, ObjectClass.agreesWith_assemble _ hasAll_object nodup_object,
    List.all_eq_true]
  intro row member
  have has := hasAll_object row member
  have found : Directory.findRow row.1 (("id", Storage.uint64.word table.id) ::
      table.address.base) = some row.2 := Directory.findRow_of_mem nodup_object member
  have kept := (ObjectClass.get?_assemble has hasAll_object).trans found
  rcases row with ⟨attr, value⟩
  cases value with
  | entries members => rfl
  | bytes content | list items => exact decide_eq_true kept

end MapTable

/-! ## Reading -/

structure Contents.Holds (contents : Contents) (table : MapTable)
    (rows : List (List (String × AttrValue))) : Prop where
  room : table.id < countOfBits 64
  legacyFits : table.mapType.isLegacy = true → table.switchId < countOfBits 32
  stored : ∃ stored ∈ contents.ofClass (.mapTable table.mapType),
    stored.agreesWith table.object = true
  entries : List.Forall₂ (table.address.Stores table.id) rows
    (contents.entriesOf table.mapType table.object)

theorem TableAddress.decode_entry_answer (address : TableAddress) (stored : StoreObject)
    (entries : List StoreObject) :
    address.tableClass.decode "entry" ((stored.insert (address.tableClass.pathOf "entry")
        (.entries entries)).answer address.tableClass) =
          .ok (some (.objects entries)) := by
  have found : address.tableClass.spec? "entry" = some .entries := rfl
  rw [ObjectClass.decode_eq_some_iff found]
  exact ⟨.entries entries, by simp, rfl, rfl⟩

theorem TableAddress.decodeEntries_answer {address : TableAddress} {id : Nat}
    {rows : List (List (String × AttrValue))} {entries : List StoreObject}
    (stored : StoreObject) (stores : List.Forall₂ (address.Stores id) rows entries) :
    address.decodeEntries ((stored.insert (address.tableClass.pathOf "entry")
        (.entries entries)).answer address.tableClass) =
      .ok (rows.map fun values => ⟨some id, values⟩) := by
  rw [decodeEntries, decode_entry_answer, Results.ok_bind]
  apply Results.mapM_eq_ok_iff.mpr
  rw [List.forall₂_map_right_iff]
  exact (stores.imp fun values entry entryStores => entryStores.decodeEntry).flip

namespace MapTable

theorem template_eq_ok_iff {table : MapTable} {object : StoreObject} :
    table.template = .ok object ↔
      (table.mapType.isLegacy = true → table.switchId < countOfBits 32) ∧
        table.id < countOfBits 64 ∧ object = table.object := by
  rw [template, Results.mapError_eq_ok_iff, TableAddress.tableObject_eq_ok_iff]
  refine and_congr_right fun _ => and_congr_left fun _ => ?_
  exact ⟨fun room => room table.id rfl, fun room id same => by cases same; exact room⟩

theorem hasParent_of_agrees {table : MapTable} {contents : Contents}
    {stored entry : StoreObject}
    (member : stored ∈ contents.ofClass (.mapTable table.mapType))
    (agrees : stored.agreesWith table.object = true)
    (hasId : entry.get? ((ObjectClass.mapEntry table.mapType).pathOf "id") =
      some (Storage.uint64.word table.id)) :
    contents.hasParent (.mapEntry table.mapType)
      ((ObjectClass.mapEntry table.mapType).pathOf "id") entry = true := by
  rw [ObjectClass.pathOf_id_entry] at hasId ⊢
  simp only [Contents.hasParent, ObjectClass.parent?, hasId,
    Option.isSome_some, Bool.true_and]
  exact List.any_eq_true.mpr ⟨stored, member, decide_eq_true (id_of_agreesWith agrees)⟩

theorem belongsTo_object_iff {table : MapTable} {stored : StoreObject} :
    Contents.belongsTo table.mapType table.object stored = true ↔
      stored.classPath = (ObjectClass.mapEntry table.mapType).path ∧
        stored.get? ((ObjectClass.mapEntry table.mapType).pathOf "id") =
          some (Storage.uint64.word table.id) := by
  rw [ObjectClass.pathOf_id_entry]
  simp only [Contents.belongsTo, ← ObjectClass.pathOf_id_table, get?_id_object,
    Bool.and_eq_true, decide_eq_true_eq]

theorem found_eq {table : MapTable} {contents : Contents} {stored : StoreObject}
    (agrees : stored.agreesWith table.object = true) :
    Memory.found contents (.mapTable table.mapType) stored =
      stored.insert ((ObjectClass.mapTable table.mapType).pathOf "entry")
        (.entries (contents.entriesOf table.mapType table.object)) := by
  have sameId := (id_of_agreesWith agrees).trans get?_id_object.symm
  have belongs : Contents.belongsTo table.mapType stored =
      Contents.belongsTo table.mapType table.object := by
    funext other
    simp only [Contents.belongsTo, ← ObjectClass.pathOf_id_table, sameId]
  rw [Memory.found, Contents.entriesOf, belongs, ObjectClass.pathOf_entry_table]
  rfl

theorem fetch_ends {memory : Memory} {table : MapTable}
    (template : table.template = .ok table.object)
    (isStored : ∃ stored ∈ memory.contents.ofClass (.mapTable table.mapType),
      stored.agreesWith table.object = true) (available : memory.unavailable = 0) :
    ∃ stored, table.fetch.run.Ends Memory.responder memory
      (.ok ((StoreObject.insert stored
        ((ObjectClass.mapTable table.mapType).pathOf "entry")
        (.entries (memory.contents.entriesOf table.mapType table.object))).answer
          (.mapTable table.mapType))) memory := by
  rcases isStored with ⟨stored, isOf, agrees⟩
  cases matching : (memory.contents.ofClass (.mapTable table.mapType)).filter
      fun stored => stored.agreesWith table.object with
  | nil => exact absurd agrees (List.filter_eq_nil_iff.mp matching stored isOf)
  | cons first others =>
      have firstAgrees : first.agreesWith table.object = true := by
        have member : first ∈ first :: others := List.mem_cons_self
        rw [← matching, List.mem_filter] at member
        exact member.2
      have answered : memory.query table.object =
          (.ok ((first :: others).map fun stored =>
          (Memory.found memory.contents (.mapTable table.mapType) stored).answer
            (.mapTable table.mapType)), memory) := by
        rw [← matching]
        exact Memory.query_eq_found table.object available classPath_object
      rw [List.map_cons, found_eq firstAgrees] at answered
      rw [fetch, template]
      exact ⟨first, Task.ends_bind (Task.ends_pure table.object)
        (Task.ends_bind (Task.ends_query answered) (Task.ends_require_some _ _))⟩

theorem read_ends {memory : Memory} {table : MapTable}
    {rows : List (List (String × AttrValue))} (holds : memory.contents.Holds table rows)
    (available : memory.unavailable = 0) :
    table.read.run.Ends Memory.responder memory
      (.ok (rows.map fun values => ⟨some table.id, values⟩)) memory := by
  have template := template_eq_ok_iff.mpr ⟨holds.legacyFits, holds.room, rfl⟩
  rcases fetch_ends template holds.stored available with ⟨stored, fetched⟩
  exact Task.ends_bind fetched
    (Task.ends_ofCodec (TableAddress.decodeEntries_answer stored holds.entries))

end MapTable

namespace Memory

variable {memory : Memory} {table : MapTable} {entries : List StoreObject}

def withTable (memory : Memory) (table : MapTable)
    (entries : List StoreObject) : Memory :=
  { memory with
    contents :=
      ⟨memory.contents.objects ++ [table.object] ++ entries, memory.contents.nextId + 1⟩
    log :=
      memory.log ++ [⟨.create, table.request⟩] ++ entries.map (Operation.mk .create) }

@[simp] theorem rules_withTable :
    (memory.withTable table entries).rules = memory.rules := rfl

/-! ## Creating the table -/

section Creating

variable (isNext : table.id = memory.contents.nextId)
  (fresh : memory.contents.FreshFor table.mapType)

include isNext fresh

theorem id_of_created : table.id < countOfBits 64 := isNext ▸ fresh.room

theorem not_addressed_of_fresh {objectClass : ObjectClass} {object : StoreObject}
    (isKey : "id" ∈ objectClass.keyAttrs)
    (isOf : objectClass = .mapTable table.mapType ∨ objectClass = .mapEntry table.mapType)
    (plain : object.IsPlain)
    (hasId : object.get? (objectClass.pathOf "id") =
      some (Storage.uint64.word table.id)) :
    ∀ stored ∈ memory.contents.objects,
      ¬Contents.addressed objectClass object stored = true := by
  intro stored member hit
  rcases Contents.addressed_iff.mp hit with ⟨key, identified, found⟩
  rcases StoreObject.entity?_eq_some_iff.mp found with ⟨samePath, storedKey⟩
  have same := ObjectClass.lookup_eq_of_identity?_eq storedKey identified isKey
  rw [plain.lookup, hasId, isNext] at same
  rcases isOf with rfl | rfl
  · exact (fresh.free stored member (.inl samePath)).1 same
  · exact (fresh.free stored member (.inr samePath)).1 same

omit isNext fresh in
theorem needsId_request :
    Contents.needsId (.mapTable table.mapType) table.request = true :=
  Contents.needsId_of_unnumbered rfl MapTable.get?_id_request

omit isNext fresh in
theorem completed?_request {contents : Contents} (isNext : table.id = contents.nextId) :
    contents.completed? (.mapTable table.mapType) table.request =
      if contents.nextId < countOfBits 64 then some table.object else none := by
  rw [Contents.completed?, if_pos needsId_request, ← isNext]
  rfl

theorem create_request :
    memory.contents.create (.mapTable table.mapType) table.request =
      .ok (table.object, ⟨memory.contents.objects ++ [table.object],
        memory.contents.nextId + 1⟩) := by
  have completed : memory.contents.completed? (.mapTable table.mapType) table.request =
      some table.object := (completed?_request isNext).trans (if_pos fresh.room)
  have free := not_addressed_of_fresh isNext fresh List.mem_cons_self (.inl rfl)
    MapTable.isPlain_object MapTable.get?_id_object
  rw [Contents.create_eq_ok_iff]
  refine ⟨by rw [ObjectClass.Has]; rfl, completed, rfl, free, ?_⟩
  rw [Contents.idAfter, if_pos needsId_request]

theorem transact_createTable (unruled : memory.rules = []) :
    memory.transact [⟨.create, table.request⟩] =
      (.ok [table.object.answer (.mapTable table.mapType)],
        memory.withTable table []) := by
  have created := create_request isNext fresh
  rw [transact_of_carryOut ⟨.create, table.request⟩ unruled
    MapTable.classPath_request created]
  simp [withTable]

omit isNext fresh in
theorem create_accepted {after : Memory} (room : table.id < countOfBits 64)
    (unstaged : table.cleared = table)
    (legacyFits : table.mapType.isLegacy = true → table.switchId < countOfBits 32)
    (accepted : memory.transact [⟨.create, table.request⟩] =
      (.ok [table.object.answer (.mapTable table.mapType)], after)) :
    (MapTable.create table.mapType table.switchId).run.Ends Memory.responder
      memory (.ok table)
      after := by
  have request : TableAddress.tableObject ⟨table.mapType, table.switchId, none⟩ =
      .ok table.request :=
    TableAddress.tableObject_eq_ok_iff.mpr ⟨legacyFits, by simp, rfl⟩
  have isOf : table.object.classPath = (ObjectClass.mapTable table.mapType).path :=
    MapTable.classPath_object
  have wrapped := Record.wrap_answer isOf
  have found : (ObjectClass.mapTable table.mapType).spec? "id" =
    some (.scalar .uint64) := rfl
  have identified :=
    (Record.id_answer_iff found ⟨rfl, rfl⟩).mpr ⟨room, MapTable.get?_id_object⟩
  have finished :
      ({ mapType := table.mapType, switchId := table.switchId, id := table.id } :
      MapTable) = table := unstaged
  rw [MapTable.create]
  refine Task.ends_bind (Task.ends_ofCodec request)
    (Task.ends_bind (Task.ends_transact accepted)
    (Task.ends_bind (Task.ends_require_some _ _)
      (Task.ends_bind (Task.ends_ofCodec wrapped)
      (Task.ends_bind (Task.ends_ofCodec identified)
        (Task.ends_bind (Task.ends_require_some _ _) ?_)))))
  rw [finished]
  exact Task.ends_pure table

theorem create_ends (unruled : memory.rules = []) (unstaged : table.cleared = table)
    (legacyFits : table.mapType.isLegacy = true → table.switchId < countOfBits 32) :
    (MapTable.create table.mapType table.switchId).run.Ends Memory.responder
      memory (.ok table) (memory.withTable table []) :=
  create_accepted (id_of_created isNext fresh) unstaged legacyFits
    (transact_createTable isNext fresh unruled)

/-! ## Creating the entries -/

theorem free_of_stores {values : List (String × AttrValue)} {entry : StoreObject}
    (stores : table.address.Stores table.id values entry) :
    ∀ stored ∈ (memory.withTable table []).contents.objects,
      ¬Contents.addressed (.mapEntry table.mapType) entry stored = true := by
  intro stored member
  simp only [withTable, List.append_nil, List.mem_append, List.mem_singleton] at member
  rcases member with old | rfl
  · exact not_addressed_of_fresh isNext fresh List.mem_cons_self (.inr rfl)
      stores.plain stores.id stored old
  · intro hit
    rcases Contents.addressed_iff.mp hit with ⟨key, -, found⟩
    have samePath := (StoreObject.entity?_eq_some_iff.mp found).1
    rw [MapTable.classPath_object] at samePath
    cases ObjectClass.path_injective samePath

theorem transact_createEntries (unruled : memory.rules = [])
    {authored : List (List (String × AttrValue))}
    (stores : List.Forall₂ (table.address.Stores table.id) authored entries) :
    ((authored.map table.mapType.keyOf).Nodup →
      (memory.withTable table []).transact (entries.map (Operation.mk .create)) =
        (.ok (entries.map (StoreObject.answer (.mapEntry table.mapType))),
          memory.withTable table entries)) ∧
    (¬(authored.map table.mapType.keyOf).Nodup →
      ∃ reason, (memory.withTable table []).transact
        (entries.map (Operation.mk .create)) =
        (.error (.rejected reason), memory.withTable table [])) := by
  have samePath : ∀ entry ∈ entries,
      entry.classPath = (ObjectClass.mapEntry table.mapType).path := by
    intro entry member
    rcases Results.exists_left stores member with ⟨values, -, entryStores⟩
    exact entryStores.classPath
  have parents : ∀ entry ∈ entries,
      (memory.withTable table []).contents.hasParent (.mapEntry table.mapType)
        ((ObjectClass.mapEntry table.mapType).pathOf "id") entry = true := by
    intro entry member
    rcases Results.exists_left stores member with ⟨values, -, entryStores⟩
    refine MapTable.hasParent_of_agrees (Contents.mem_ofClass_iff.mpr
      ⟨?_, MapTable.classPath_object⟩) MapTable.agreesWith_object_self entryStores.id
    simp [withTable]
  have free : ∀ entry ∈ entries, ∀ stored ∈ (memory.withTable table []).contents.objects,
      ¬Contents.addressed (.mapEntry table.mapType) entry stored = true := by
    intro entry member
    rcases Results.exists_left stores member with ⟨values, -, entryStores⟩
    exact free_of_stores isNext fresh entryStores
  have performed := fun answers after =>
    @Contents.performAll_createEntries_iff _ after _ _ answers samePath parents
  have apart := TableAddress.pairwise_addressed_iff stores
  constructor
  · intro distinct
    have accepted := (performed _ _).mpr ⟨free, apart.mpr distinct, rfl, rfl⟩
    rw [← unruled, ← rules_withTable] at accepted
    rw [transact_of_ok accepted]
    simp [withTable]
  · intro clash
    cases outcome : (memory.withTable table []).contents.performAll
        (memory.withTable table []).rules (entries.map (Operation.mk .create)) with
    | error reason => exact ⟨reason, transact_of_error outcome⟩
    | ok result =>
        rw [rules_withTable, unruled] at outcome
        exact absurd (apart.mp ((performed _ _).mp outcome).2.1) clash

end Creating

/-! ## Reading what was created -/

section Reading

variable (isNext : table.id = memory.contents.nextId)
  (fresh : memory.contents.FreshFor table.mapType)
  {authored : List (List (String × AttrValue))}
  (stores : List.Forall₂ (table.address.Stores table.id) authored entries)

include isNext fresh stores

theorem entriesOf_withTable :
    (memory.withTable table entries).contents.entriesOf table.mapType
      table.object = entries := by
  simp only [Contents.entriesOf, withTable, List.filter_append]
  have old : memory.contents.objects.filter
      (Contents.belongsTo table.mapType table.object) = [] := by
    apply List.filter_eq_nil_iff.mpr
    intro stored member belongs
    rcases MapTable.belongsTo_object_iff.mp belongs with ⟨isEntry, hasId⟩
    rw [isNext] at hasId
    exact (fresh.free stored member (.inr isEntry)).2 hasId
  have own : [table.object].filter
      (Contents.belongsTo table.mapType table.object) = [] := by
    simp [Contents.belongsTo, MapTable.classPath_object]
  have new : entries.filter
      (Contents.belongsTo table.mapType table.object) = entries := by
    rw [List.filter_eq_self]
    intro entry member
    rcases Results.exists_left stores member with ⟨values, -, entryStores⟩
    exact MapTable.belongsTo_object_iff.mpr ⟨entryStores.classPath, entryStores.id⟩
  rw [old, own, new, List.nil_append, List.nil_append]

theorem holds_withTable
    (legacyFits : table.mapType.isLegacy = true → table.switchId < countOfBits 32) :
    (memory.withTable table entries).contents.Holds table authored where
  room := id_of_created isNext fresh
  legacyFits := legacyFits
  stored := by
    refine ⟨table.object, Contents.mem_ofClass_iff.mpr ⟨?_, MapTable.classPath_object⟩,
      MapTable.agreesWith_object_self⟩
    simp [withTable]
  entries := by
    rw [entriesOf_withTable isNext fresh stores]
    exact stores

theorem read_ends (available : memory.unavailable = 0)
    (legacyFits : table.mapType.isLegacy = true → table.switchId < countOfBits 32) :
    table.read.run.Ends Memory.responder (memory.withTable table entries)
      (.ok (authored.map fun values => ⟨some table.id, values⟩))
      (memory.withTable table entries) :=
  MapTable.read_ends (holds_withTable isNext fresh stores legacyFits) available

end Reading

end Memory

end SwitchQos
