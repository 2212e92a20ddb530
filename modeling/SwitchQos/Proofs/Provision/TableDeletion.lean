import SwitchQos.Proofs.Provision.MapTables
import SwitchQos.Proofs.Provision.Staging
import SwitchQos.Proofs.Provision.Submissions
import SwitchQos.Proofs.Store.Batches
import SwitchQos.Proofs.Store.MapParts

namespace SwitchQos

/-! A table is deleted in one batch, which a client makes of what it reads: first all
entries, then the table itself. In a store whose tables and entries of the type come from
clients of one switch, each of these addresses just what was read, so the batch removes
the table and its entries or is refused as a whole. -/

/-! ## What clients leave behind -/

namespace Operation

/-- An operation that clients of the tables of the type submit: the creation of a table, a
change of an entry, or the removal of what has been read. -/
inductive ByClient (mapType : MapType) (switchId : Nat) : Operation → Prop
  | table {request : StoreObject}
      (built : TableAddress.tableObject ⟨mapType, switchId, none⟩ = .ok request) :
      ByClient mapType switchId ⟨.create, request⟩
  | entry {operation : Operation} {id : Nat} {change : Change}
      (expresses : TableAddress.Expresses ⟨mapType, switchId, some id⟩ id
        change operation) :
      ByClient mapType switchId operation
  | removal {objectClass : ObjectClass} {object : StoreObject}
      (ofMap : objectClass.OfMap mapType) (isOf : object.classPath = objectClass.path) :
      ByClient mapType switchId ⟨.delete, object⟩

end Operation

theorem MapTable.number?_object (table : MapTable) (room : table.id < countOfBits 64) :
    (ObjectClass.mapTable table.mapType).number? "id" table.object = some table.id := by
  have found : (ObjectClass.mapTable table.mapType).spec? "id" =
    some (.scalar .uint64) := rfl
  rw [ObjectClass.number?_eq_some_iff found ⟨rfl, rfl⟩,
    StoreObject.IsPlain.lookup isPlain_object]
  exact ⟨room, get?_id_object⟩

theorem MapTable.entity?_object (table : MapTable) :
    table.object.entity? = some ⟨.mapTable table.mapType,
      [Storage.uint64.word table.id]⟩ :=
  (Contents.entity?_table_iff isPlain_object).mpr ⟨classPath_object, get?_id_object⟩

namespace Contents

variable {contents after : Contents} {mapType : MapType} {switchId : Nat}
  {table : MapTable} {objectClass : ObjectClass} {object stored result : StoreObject}

/-- The tables and entries of the type are as clients of the switch have made them:
entries have all their values and a table, and tables are what their clients look for. -/
structure ClientKept (contents : Contents) (mapType : MapType)
    (switchId : Nat) : Prop where
  intact : (contents.mapPart mapType).Intact
  keyed : ∀ stored ∈ (contents.mapPart mapType).objects, ∃ entity,
    stored.entity? = some entity
  tables : ∀ stored ∈ (contents.mapPart mapType).objects,
    stored.classPath = (ObjectClass.mapTable mapType).path →
    ∃ table : MapTable, table.mapType = mapType ∧ table.switchId = switchId ∧
      table.template = .ok stored
  entries : ∀ stored ∈ (contents.mapPart mapType).objects,
    stored.classPath = (ObjectClass.mapEntry mapType).path →
    ∃ id values, TableAddress.Stores ⟨mapType, switchId, some id⟩ id values stored

theorem ClientKept.congr (kept : contents.ClientKept mapType switchId)
    (same : (after.mapPart mapType).objects = (contents.mapPart mapType).objects) :
    after.ClientKept mapType switchId := by
  rcases kept with ⟨⟨plain, classed, distinct, numbered, owned⟩, keyed, tables, entries⟩
  simp only [HoldsTable, ← same]
    at plain classed distinct numbered owned keyed tables entries
  exact ⟨⟨plain, classed, distinct, numbered, owned⟩, keyed, tables, entries⟩

theorem clientKept_of_empty (empty : (contents.mapPart mapType).objects = []) :
    contents.ClientKept mapType switchId := by
  have none {holds : StoreObject → Prop} :
      ∀ stored ∈ (contents.mapPart mapType).objects, holds stored := by simp [empty]
  exact ⟨⟨none, none, empty ▸ .nil, none, none⟩, none, none, none⟩

theorem ClientKept.created (kept : contents.ClientKept mapType switchId)
    (ofMap : objectClass.OfMap mapType) (plain : object.IsPlain)
    (isOf : object.classPath = objectClass.path) {entity : Entity}
    (found : result.entity? = some entity)
    (isTable : result.classPath = (ObjectClass.mapTable mapType).path →
      ∃ table : MapTable, table.mapType = mapType ∧ table.switchId = switchId ∧
        table.template = .ok result)
    (isEntry : result.classPath = (ObjectClass.mapEntry mapType).path →
      ∃ id values, TableAddress.Stores ⟨mapType, switchId, some id⟩ id values result)
    (done : contents.create objectClass object = .ok (result, after)) :
    after.ClientKept mapType switchId := by
  have own := create_mapPart ofMap isOf done
  have objects := congrArg Contents.objects (create_eq_ok_iff.mp own).2.2.2.2
  have each {holds : StoreObject → Prop} (new : holds result)
      (old : ∀ stored ∈ (contents.mapPart mapType).objects, holds stored) :
      ∀ stored ∈ (after.mapPart mapType).objects, holds stored := by
    rw [objects]
    exact List.forall_mem_append.mpr ⟨old, List.forall_mem_singleton.mpr new⟩
  exact ⟨kept.intact.create plain isOf own, each ⟨entity, found⟩ kept.keyed,
    each isTable kept.tables, each isEntry kept.entries⟩

theorem ClientKept.setEntry (kept : contents.ClientKept mapType switchId) {id : Nat}
    {values : EntryValues}
    (stores : TableAddress.Stores ⟨mapType, switchId, some id⟩ id values object)
    (done : contents.set (.mapEntry mapType) object = .ok (result, after)) :
    after.ClientKept mapType switchId := by
  have own := set_mapPart (.inr rfl) kept.intact.distinct done
  rcases (set_eq_ok_iff kept.intact.distinct).mp own with ⟨-, -, -, -, same⟩
  have objects := congrArg Contents.objects same
  have each {holds : StoreObject → Prop}
      (written : ∀ old ∈ (contents.mapPart mapType).objects,
        holds (overwritten (.mapEntry mapType) object old)) :
      ∀ stored ∈ (after.mapPart mapType).objects, holds stored := by
    rw [objects]
    exact List.forall_mem_map.mpr written
  refine ⟨kept.intact.set own, each fun old isOld => ?_, each fun old isOld isTable => ?_,
    each fun old isOld isEntry => ?_⟩
  · rw [entity?_overwritten (kept.intact.plain old isOld)]
    exact kept.keyed old isOld
  · rw [classPath_overwritten] at isTable
    have missed : ¬addressed (.mapEntry mapType) object old = true := by
      intro hit
      rcases addressed_iff.mp hit with ⟨key, -, found⟩
      have isEntry := (StoreObject.entity?_eq_some_iff.mp found).1
      cases ObjectClass.path_injective (isTable.symm.trans isEntry)
    rw [overwritten, if_neg missed]
    exact kept.tables old isOld isTable
  · rw [classPath_overwritten] at isEntry
    rw [overwritten]
    split
    · exact ⟨id, values, stores.mergedInto isEntry (kept.intact.plain old isOld)⟩
    · exact kept.entries old isOld isEntry

theorem ClientKept.deleted (kept : contents.ClientKept mapType switchId)
    (ofMap : objectClass.OfMap mapType)
    (done : contents.delete objectClass object = .ok (result, after)) :
    after.ClientKept mapType switchId := by
  have own := delete_mapPart ofMap kept.intact.distinct done
  rcases (delete_eq_ok_iff kept.intact.distinct).mp own with ⟨-, -, same⟩
  have objects := congrArg Contents.objects same
  have isOld : ∀ stored ∈ (after.mapPart mapType).objects,
      stored ∈ (contents.mapPart mapType).objects := fun stored member => by
    rw [objects] at member
    exact List.mem_of_mem_filter member
  exact ⟨kept.intact.delete own, fun stored member =>
    kept.keyed stored (isOld stored member),
    fun stored member => kept.tables stored (isOld stored member),
    fun stored member => kept.entries stored (isOld stored member)⟩

theorem ClientKept.createTable (kept : contents.ClientKept mapType switchId)
    (built : TableAddress.tableObject ⟨mapType, switchId, none⟩ = .ok object)
    (done : contents.create (.mapTable mapType) object = .ok (result, after)) :
    after.ClientKept mapType switchId := by
  rcases TableAddress.tableObject_eq_ok_iff.mp built with ⟨legacyFits, -, rfl⟩
  let table : MapTable := { mapType, switchId, id := contents.nextId }
  have completed : contents.completed? (.mapTable mapType) table.request = some result :=
    (create_eq_ok_iff.mp done).2.1
  rw [@Memory.completed?_request table contents rfl, Option.ite_none_right_eq_some,
    Option.some.injEq] at completed
  rcases completed with ⟨room, rfl⟩
  have template : table.template = .ok table.object :=
    MapTable.template_eq_ok_iff.mpr ⟨legacyFits, room, rfl⟩
  apply kept.created (.inl rfl) ObjectClass.keyData_assemble table.classPath_request
    table.entity?_object (fun _ => ⟨table, rfl, rfl, template⟩) (fun isEntry => ?_) done
  cases ObjectClass.path_injective (table.classPath_object.symm.trans isEntry)

theorem ClientKept.createEntry (kept : contents.ClientKept mapType switchId) {id : Nat}
    {values : EntryValues}
    (stores : TableAddress.Stores ⟨mapType, switchId, some id⟩ id values object)
    (done : contents.create (.mapEntry mapType) object = .ok (result, after)) :
    after.ClientKept mapType switchId := by
  have carries := stores.carries
  rcases carries.identity?_isSome with ⟨key, identified⟩
  have same : result = object := (create_entry_eq_ok_iff.mp done).1
  rw [same] at done
  have found : object.entity? = some ⟨.mapEntry mapType, key⟩ :=
    StoreObject.entity?_eq_some_iff.mpr ⟨carries.classPath, identified⟩
  apply kept.created (.inr rfl) carries.plain carries.classPath found
    (fun isTable => ?_) (fun _ => ⟨id, values, stores⟩) done
  cases ObjectClass.path_injective (carries.classPath.symm.trans isTable)

theorem ClientKept.keeps {operation : Operation}
    (byClient : operation.ByClient mapType switchId) :
    Keeps (ClientKept · mapType switchId) operation := by
  intro before after objectClass result isOf kept carried
  cases byClient with
  | @table request built =>
      have isTable : request.classPath = (ObjectClass.mapTable mapType).path := by
        rcases TableAddress.tableObject_eq_ok_iff.mp built with ⟨-, -, rfl⟩
        exact ObjectClass.classPath_assemble
      obtain rfl := ObjectClass.path_injective (isOf.symm.trans isTable)
      exact kept.createTable built carried
  | @entry operation id change expresses =>
      rcases operation with ⟨verb, object⟩
      rcases change with ⟨_, values⟩
      rcases expresses with ⟨rfl, carries, full⟩
      obtain rfl := ObjectClass.path_injective (isOf.symm.trans carries.classPath)
      cases verb with
      | create => exact kept.createEntry (carries.stores (full (by simp))) carried
      | set => exact kept.setEntry (carries.stores (full (by simp))) carried
      | delete => exact kept.deleted (.inr rfl) carried
  | @removal ownClass object ofMap isOwn =>
      obtain rfl := ObjectClass.path_injective (isOf.symm.trans isOwn)
      exact kept.deleted ofMap carried

end Contents

/-! ## Histories -/

/-- A store in which only clients of the switch have made tables and entries of the type.
They may be deleted in any way. Anything may happen to the other objects, to failure rules
and to listings, and the store may be out of reach meanwhile. -/
inductive Memory.ClientMade (mapType : MapType) (switchId : Nat) : Memory → Prop
  | start {memory : Memory} (empty : (memory.contents.mapPart mapType).objects = []) :
      ClientMade mapType switchId memory
  | elsewhere {before after : Memory} (made : ClientMade mapType switchId before)
      (same : (after.contents.mapPart mapType).objects =
        (before.contents.mapPart mapType).objects) :
      ClientMade mapType switchId after
  | created {before after : Memory} {result : Except ProvisionError MapTable}
      (made : ClientMade mapType switchId before)
      (ends : (MapTable.create mapType switchId).run.Ends Memory.responder
        before result after) :
      ClientMade mapType switchId after
  | committed {before after : Memory} {id : Nat} {edits : List Edit} {staged : MapTable}
      {result : Except ProvisionError MapTable}
      (made : ClientMade mapType switchId before)
      (session : edits.foldlM MapTable.stage { mapType, switchId, id } = .ok staged)
      (ends : staged.commit.run.Ends Memory.responder before result after) :
      ClientMade mapType switchId after
  | deleted {before after : Memory} {id : Nat} {result : Except ProvisionError Unit}
      (made : ClientMade mapType switchId before)
      (ends : (MapTable.delete { mapType, switchId, id }).run.Ends
        Memory.responder before result after) :
      ClientMade mapType switchId after
  | removed {before : Memory} {batch : List Operation}
      (made : ClientMade mapType switchId before)
      (removes : ∀ operation ∈ batch, operation.verb = .delete ∧
        Contents.isOfMap mapType operation.object = true) :
      ClientMade mapType switchId (before.transact batch).2

namespace MapTable

open SwitchQos.Task

variable {mapType : MapType} {switchId : Nat} {table staged : MapTable}
  {edits : List Edit}

theorem submits_byClient_create :
    (MapTable.create mapType switchId).run.Submits fun batch =>
    ∀ operation ∈ batch, operation.ByClient mapType switchId := by
  refine submits_ofCodec_bind fun request built =>
    submits_bind (submits_transact ?_) fun _ => ?_
  · exact List.forall_mem_singleton.mpr (.table built)
  · exact submits_require_bind fun _ => submits_ofCodec_bind fun _ _ =>
      submits_ofCodec_bind fun _ _ => submits_require_bind fun _ => trivial

theorem submits_byClient_commit (unstaged : table.cleared = table)
    (session : edits.foldlM stage table = .ok staged) :
    staged.commit.run.Submits fun batch =>
      ∀ operation ∈ batch, operation.ByClient table.mapType table.switchId := by
  rw [commit]
  split
  · trivial
  · refine submits_bind (submits_transact fun operation member => ?_) fun _ => trivial
    rcases expresses_batch unstaged session with ⟨-, changes, -, expressed⟩
    rcases Results.exists_left expressed member with ⟨change, -, expresses⟩
    exact .entry expresses

/-! ## The batch -/

def owns (table : MapTable) (stored : StoreObject) : Bool :=
  (stored.classPath = (ObjectClass.mapTable table.mapType).path &&
      (ObjectClass.mapTable table.mapType).number? "id" stored = some table.id) ||
    (stored.classPath = (ObjectClass.mapEntry table.mapType).path &&
      (ObjectClass.mapEntry table.mapType).number? "id" stored = some table.id)

def IsStoredIn (table : MapTable) (contents : Contents) : Prop :=
  ∃ stored ∈ contents.ofClass (.mapTable table.mapType),
    (ObjectClass.mapTable table.mapType).number? "id" stored = some table.id

instance (table : MapTable) (contents : Contents) :
    Decidable (table.IsStoredIn contents) :=
  inferInstanceAs (Decidable (∃ stored ∈ contents.ofClass (.mapTable table.mapType),
    (ObjectClass.mapTable table.mapType).number? "id" stored = some table.id))

def removals (table : MapTable) (contents : Contents) : List Operation :=
  (contents.entriesOf table.mapType table.object).map (Operation.mk .delete) ++
    [⟨.delete, table.object⟩]

end MapTable

namespace Contents

variable {contents : Contents} {table : MapTable} {stored : StoreObject}

def without (contents : Contents) (table : MapTable) : Contents :=
  { contents with objects := contents.objects.filter fun stored => !table.owns stored }

def emptied (contents : Contents) (table : MapTable) : Contents :=
  { contents with
    objects := contents.objects.filter
      fun stored => stored ∉ contents.entriesOf table.mapType table.object }

section Kept

variable (kept : contents.ClientKept table.mapType table.switchId)

include kept

theorem ClientKept.plain {objectClass : ObjectClass}
    (ofMap : objectClass.OfMap table.mapType)
    (listed : stored ∈ contents.ofClass objectClass) : stored.IsPlain := by
  rw [← ofClass_mapPart ofMap] at listed
  exact kept.intact.plain stored (mem_ofClass_iff.mp listed).1

theorem ClientKept.template_eq
    (listed : stored ∈ contents.ofClass (.mapTable table.mapType))
    (hasId : (ObjectClass.mapTable table.mapType).number? "id" stored = some table.id) :
    table.template = .ok stored := by
  rw [← ofClass_mapPart (.inl rfl)] at listed
  rcases mem_ofClass_iff.mp listed with ⟨member, isTable⟩
  rcases kept.tables stored member isTable with ⟨other, sameType, sameSwitch, template⟩
  rcases MapTable.template_eq_ok_iff.mp template with ⟨-, room, rfl⟩
  have sameId : other.id = table.id := by
    rw [← sameType, other.number?_object room, Option.some.injEq] at hasId
    exact hasId
  rw [← template, MapTable.template, MapTable.template, MapTable.address,
    MapTable.address, sameType, sameSwitch, sameId]

theorem ClientKept.isStoredIn_iff : table.IsStoredIn contents ↔
    table.template = .ok table.object ∧ table.object ∈ contents.objects := by
  constructor
  · rintro ⟨stored, listed, hasId⟩
    have template := kept.template_eq listed hasId
    have same := (MapTable.template_eq_ok_iff.mp template).2.2
    rw [same] at template listed
    exact ⟨template, (mem_ofClass_iff.mp listed).1⟩
  · rintro ⟨template, member⟩
    have room := (MapTable.template_eq_ok_iff.mp template).2.1
    exact ⟨table.object, mem_ofClass_iff.mpr ⟨member, MapTable.classPath_object⟩,
      table.number?_object room⟩

theorem ClientKept.owns_iff (template : table.template = .ok table.object)
    (member : stored ∈ contents.objects) : table.owns stored = true ↔
      stored = table.object ∨ belongsTo table.mapType table.object stored = true := by
  have room := (MapTable.template_eq_ok_iff.mp template).2.1
  rw [MapTable.owns, Bool.or_eq_true, Bool.and_eq_true, Bool.and_eq_true,
    decide_eq_true_eq, decide_eq_true_eq, decide_eq_true_eq, decide_eq_true_eq,
    MapTable.belongsTo_object_iff]
  refine or_congr ?_ (and_congr_right fun isEntry => ?_)
  · constructor
    · rintro ⟨isTable, hasId⟩
      have same := kept.template_eq (mem_ofClass_iff.mpr ⟨member, isTable⟩) hasId
      exact (MapTable.template_eq_ok_iff.mp same).2.2
    · rintro rfl
      exact ⟨MapTable.classPath_object, table.number?_object room⟩
  · have found : (ObjectClass.mapEntry table.mapType).spec? "id" =
        some (AttrSpec.scalar .uint64).inParent := rfl
    have plain := kept.plain (.inr rfl) (mem_ofClass_iff.mpr ⟨member, isEntry⟩)
    rw [ObjectClass.number?_eq_some_iff found ⟨rfl, rfl⟩, plain.lookup]
    exact and_iff_right room

omit kept in
theorem mem_entriesOf_iff : stored ∈ contents.entriesOf table.mapType table.object ↔
    stored ∈ contents.objects ∧ belongsTo table.mapType table.object stored = true :=
  List.mem_filter

theorem ClientKept.key_of_entry
    (isEntry : stored ∈ contents.entriesOf table.mapType table.object) :
    ∃ key, stored.entity? = some ⟨.mapEntry table.mapType, key⟩ := by
  rcases mem_entriesOf_iff.mp isEntry with ⟨member, belongs⟩
  have isOf := (MapTable.belongsTo_object_iff.mp belongs).1
  have own := mem_mapPart_iff.mpr ⟨member, isOfMap_of_classPath (.inr rfl) isOf⟩
  rcases kept.keyed stored own with ⟨⟨objectClass, key⟩, found⟩
  have sameClass := (StoreObject.entity?_eq_some_iff.mp found).1
  rcases ObjectClass.path_injective (isOf.symm.trans sameClass) with rfl
  exact ⟨key, found⟩

theorem ClientKept.distinct_entriesOf :
    Distinct (contents.entriesOf table.mapType table.object) := by
  have own : contents.entriesOf table.mapType table.object =
      (contents.mapPart table.mapType).objects.filter
        (belongsTo table.mapType table.object) := by
    rw [entriesOf, mapPart, List.filter_filter]
    refine List.filter_congr fun stored _ => ?_
    cases belongs : belongsTo table.mapType table.object stored with
    | false => rfl
    | true =>
        have isEntry := (MapTable.belongsTo_object_iff.mp belongs).1
        rw [isOfMap_of_classPath (.inr rfl) isEntry, Bool.and_self]
  rw [own]
  exact kept.intact.distinct.filter _

theorem ClientKept.performAll_removals (has : table.IsStoredIn contents) :
    ∃ answers, contents.performAll [] (table.removals contents) =
      .ok (answers, contents.without table) := by
  rcases kept.isStoredIn_iff.mp has with ⟨template, isStored⟩
  rcases performAll_deleteEntries kept.intact.distinct kept.distinct_entriesOf
      fun entry isEntry =>
    ⟨(mem_entriesOf_iff.mp isEntry).1, kept.key_of_entry isEntry⟩ with
      ⟨answers, performed⟩
  -- The entries are gone, so only the table is left to be deleted.
  have distinct : Distinct ((contents.emptied table).mapPart table.mapType).objects := by
    rw [emptied, objects_mapPart_filter]
    exact kept.intact.distinct.filter _
  have isLeft : table.object ∈ (contents.emptied table).objects := by
    refine List.mem_filter.mpr ⟨isStored, decide_eq_true fun isEntry => ?_⟩
    have belongs := (mem_entriesOf_iff.mp isEntry).2
    cases ObjectClass.path_injective
      (MapTable.classPath_object.symm.trans (MapTable.belongsTo_object_iff.mp belongs).1)
  have left : (contents.emptied table).objects.filter (fun other =>
        !goesWith (.mapTable table.mapType) table.object other && other ≠ table.object) =
      (contents.without table).objects := by
    rw [emptied, List.filter_filter]
    refine List.filter_congr fun stored member => ?_
    rw [Bool.eq_iff_iff, Bool.not_eq_true', ← Bool.not_eq_true,
      kept.owns_iff template member]
    simp +contextual [goesWith, mem_entriesOf_iff, member]
  have deleted := delete_stored (.inl rfl) distinct table.entity?_object isLeft
  rw [left] at deleted
  have last : performAll [] [⟨.delete, table.object⟩] (contents.emptied table) =
      .ok ([table.object.answer (.mapTable table.mapType)], contents.without table) :=
    (performAll_singleton_of_unruled (List.forall_mem_nil _)
      MapTable.classPath_object).mpr ⟨table.object, deleted, rfl⟩
  exact ⟨_, performAll_append_eq_ok_iff.mpr ⟨answers, _, _, performed, last, rfl⟩⟩

end Kept

end Contents

/-! ## Runs -/

namespace Memory

variable {memory : Memory} {table : MapTable}
  (kept : memory.contents.ClientKept table.mapType table.switchId)

include kept

theorem transact_removals (has : table.IsStoredIn memory.contents) :
    ((∀ operation ∈ table.removals memory.contents, ∀ rule ∈ memory.rules,
        ¬rule.applies operation = true) ∧
      ∃ answers, memory.transact (table.removals memory.contents) =
        (.ok answers, { memory with
          contents := memory.contents.without table
          log := memory.log ++ table.removals memory.contents })) ∨
    (¬(∀ operation ∈ table.removals memory.contents, ∀ rule ∈ memory.rules,
        ¬rule.applies operation = true) ∧
      ∃ error, memory.transact (table.removals memory.contents) =
        (.error error, memory)) := by
  rcases kept.performAll_removals has with ⟨answers, removed⟩
  by_cases unruled : ∀ operation ∈ table.removals memory.contents, ∀ rule ∈ memory.rules,
      ¬rule.applies operation = true
  · have performed := Contents.performAll_eq_ok_iff_unruled.mpr ⟨unruled, removed⟩
    exact .inl ⟨unruled, answers, transact_of_ok performed⟩
  · refine .inr ⟨unruled, ?_⟩
    cases performed : memory.contents.performAll memory.rules
        (table.removals memory.contents) with
    | error reason => exact ⟨_, transact_of_error performed⟩
    | ok outcome =>
        exact absurd (Contents.performAll_eq_ok_iff_unruled.mp performed).1 unruled

end Memory

namespace MapTable

open SwitchQos.Task

variable {memory after : Memory} {table : MapTable}

theorem delete_ends_of_template {error : ProvisionError}
    (failed : table.template = .error error) :
    table.delete.run.Ends Memory.responder memory (.error error) memory := by
  rw [delete, fetch, failed]
  rfl

theorem delete_ends_of_query {object : StoreObject} {reply : ObjectsReply}
    (template : table.template = .ok object)
    (answered : memory.query object = (reply, after))
    (nothing : ∀ answer others, reply ≠ .ok (answer :: others)) :
    ∃ error, table.delete.run.Ends Memory.responder memory (.error error) after := by
  have fetched : ∃ error, table.fetch.run.Ends Memory.responder memory
      (.error error) after := by
    have replied : (Task.query table.name object).run.Ends Memory.responder
        memory _ after :=
      ends_query_reply answered
    rw [fetch, template]
    cases reply with
    | error cause =>
        exact ⟨_, ends_bind (ends_pure object)
          (ends_bind_iff.mpr (.inr ⟨_, replied, rfl⟩))⟩
    | ok answers =>
        cases answers with
        | cons answer others => exact absurd rfl (nothing answer others)
        | nil => exact ⟨_, ends_bind (ends_pure object) (ends_bind replied rfl)⟩
  rcases fetched with ⟨error, failed⟩
  exact ⟨error, ends_bind_iff.mpr (.inr ⟨error, failed, rfl⟩)⟩

theorem delete_ends_of_unavailable (table : MapTable) (away : memory.unavailable > 0) :
    ∃ error after, table.delete.run.Ends Memory.responder memory (.error error) after ∧
      after.contents = memory.contents := by
  cases template : table.template with
  | error error => exact ⟨error, memory, delete_ends_of_template template, rfl⟩
  | ok object =>
      have answered : memory.query object =
          (.error .unavailable, { memory with unavailable := memory.unavailable - 1 }) :=
        if_pos away
      rcases delete_ends_of_query template answered (by simp) with ⟨error, ends⟩
      exact ⟨error, _, ends, rfl⟩

section Kept

variable (kept : memory.contents.ClientKept table.mapType table.switchId)
  (available : memory.unavailable = 0)

include kept available

theorem delete_ends_of_missing (missing : ¬table.IsStoredIn memory.contents) :
    ∃ error, table.delete.run.Ends Memory.responder memory (.error error) memory := by
  cases template : table.template with
  | error error => exact ⟨error, delete_ends_of_template template⟩
  | ok object =>
      rcases template_eq_ok_iff.mp template with ⟨-, room, rfl⟩
      have none : (memory.contents.ofClass (.mapTable table.mapType)).filter
          (fun stored => stored.agreesWith table.object) = [] := by
        refine List.filter_eq_nil_iff.mpr fun stored listed agrees =>
          missing ⟨stored, listed, ?_⟩
        have found : (ObjectClass.mapTable table.mapType).spec? "id" =
          some (.scalar .uint64) := rfl
        exact ((kept.plain (.inl rfl) listed).number?_eq_some_iff found ⟨rfl, rfl⟩).mpr
          ⟨room, id_of_agreesWith agrees⟩
      have answered : memory.query table.object = (.ok [], memory) := by
        have up : ¬memory.unavailable > 0 := by simp [available]
        rw [Memory.query, if_neg up, classPath_object, ObjectClass.ofPath_path]
        simp only [none, List.map_nil]
      exact delete_ends_of_query template answered (by simp)

theorem delete_ends_of_isStoredIn (has : table.IsStoredIn memory.contents)
    {reply : ObjectsReply}
    (replied : memory.transact (table.removals memory.contents) = (reply, after)) :
    table.delete.run.Ends Memory.responder memory
      ((reply.mapError fun cause =>
        .transactionFailed table.name cause.message).map fun _ => ())
      after := by
  rcases kept.isStoredIn_iff.mp has with ⟨template, isStored⟩
  rcases fetch_ends template ⟨table.object, Contents.mem_ofClass_iff.mpr
    ⟨isStored, classPath_object⟩, agreesWith_object_self⟩ available with ⟨stored, fetched⟩
  have decoded := table.address.decode_entry_answer stored
    (memory.contents.entriesOf table.mapType table.object)
  rw [delete]
  refine ends_bind fetched (ends_bind (ends_ofCodec decoded) ?_)
  rw [template]
  refine ends_bind (ends_pure table.object) ?_
  have submitted : (Task.transact table.name (table.removals memory.contents)).run.Ends
      Memory.responder memory _ after := ends_transact_iff.mpr ⟨reply, replied, rfl⟩
  cases reply with
  | ok answers => exact ends_bind submitted rfl
  | error cause => exact ends_bind_iff.mpr (.inr ⟨_, submitted, rfl⟩)

end Kept

end MapTable

theorem Contents.byClient_removals {contents : Contents} {table : MapTable} :
    ∀ operation ∈ table.removals contents,
      operation.ByClient table.mapType table.switchId := by
  refine List.forall_mem_append.mpr ⟨List.forall_mem_map.mpr fun entry isEntry => ?_,
    List.forall_mem_singleton.mpr (.removal (.inl rfl) MapTable.classPath_object)⟩
  have belongs := (mem_entriesOf_iff.mp isEntry).2
  exact .removal (.inr rfl) (MapTable.belongsTo_object_iff.mp belongs).1

/-- Whatever has happened, the tables and entries are as clients have made them. -/
theorem Memory.ClientMade.kept {mapType : MapType} {switchId : Nat} {memory : Memory}
    (made : memory.ClientMade mapType switchId) :
    memory.contents.ClientKept mapType switchId := by
  have keeps (batch : List Operation)
      (byClient : ∀ operation ∈ batch, operation.ByClient mapType switchId) :
      ∀ operation ∈ batch, Contents.Keeps (·.ClientKept mapType switchId) operation :=
    fun operation member => Contents.ClientKept.keeps (byClient operation member)
  induction made with
  | start empty => exact Contents.clientKept_of_empty empty
  | elsewhere _ same kept => exact kept.congr same
  | created _ ends kept =>
      exact kept_of_submits MapTable.submits_byClient_create keeps ends.reaches kept
  | @committed before after id edits staged result _ session ends kept =>
      have submits :=
        @MapTable.submits_byClient_commit { mapType, switchId, id } staged edits
        rfl session
      exact kept_of_submits submits keeps ends.reaches kept
  | @deleted before after id result _ ends kept =>
      by_cases available : before.unavailable = 0
      · by_cases has : MapTable.IsStoredIn { mapType, switchId, id } before.contents
        · have submitted :=
            MapTable.delete_ends_of_isStoredIn kept available has Prod.mk.eta.symm
          rw [(submitted.unique ends).2]
          exact transact_keeps (keeps _ Contents.byClient_removals) kept
        · rcases MapTable.delete_ends_of_missing kept available has with ⟨error, failed⟩
          rwa [(failed.unique ends).2]
      · rcases MapTable.delete_ends_of_unavailable { mapType, switchId, id }
          (Nat.pos_of_ne_zero available) with ⟨error, other, failed, same⟩
        rwa [(failed.unique ends).2, same]
  | @removed before batch _ removes kept =>
      refine transact_keeps (keeps batch fun operation member => ?_) kept
      rcases operation with ⟨verb, object⟩
      rcases removes _ member with ⟨rfl, ofMap⟩
      rcases Contents.isOfMap_iff.mp ofMap with ⟨objectClass, isOne, isOf⟩
      exact .removal isOne isOf

namespace MapTable

/-! ## Two tables of the colors -/

def colorTable (id : Nat) : MapTable := { mapType := .tcColorToDot1p, switchId := 0, id }

def colorEdit (values : List String) : Edit := ⟨.create, .positional values, some ⟨0, 2⟩⟩

def colorClient (id : Nat) (values : List String) : MapTable :=
  ([colorEdit values].foldlM stage (colorTable id)).toOption.getD (colorTable id)

def leaves (task : Task MapTable) (before : Memory) : Memory :=
  (task.run.run Memory.responder before).2

def bareColors : Memory :=
  leaves (MapTable.create .tcColorToDot1p 0)
    (leaves (MapTable.create .tcColorToDot1p 0) (Memory.new 0))

def halfColors : Memory :=
  leaves (colorClient 4096 ["all", "GREEN", "1"]).commit bareColors

def bothColors : Memory := leaves (colorClient 4097 ["1", "GREEN", "5"]).commit halfColors

theorem ends_leaves {task : Task MapTable} {before : Memory}
    (ran : (task.run.run Memory.responder before).1.isSome = true) :
    ∃ result, task.run.Ends Memory.responder before result (leaves task before) := by
  rcases Option.isSome_iff_exists.mp ran with ⟨result, isResult⟩
  exact ⟨result, Prod.ext isResult rfl⟩

theorem foldlM_colorEdit {id : Nat} {values : List String}
    (succeeds : ([colorEdit values].foldlM stage (colorTable id)).isOk = true) :
    [colorEdit values].foldlM stage (colorTable id) = .ok (colorClient id values) := by
  rw [colorClient]
  cases outcome : [colorEdit values].foldlM stage (colorTable id) with
  | ok result => rfl
  | error error => simp [outcome, Except.isOk, Except.toBool] at succeeds

theorem clientMade_bothColors : bothColors.ClientMade .tcColorToDot1p 0 := by
  have runs : ((MapTable.create .tcColorToDot1p 0).run.run Memory.responder
        (Memory.new 0)).1.isSome = true ∧
      ((MapTable.create .tcColorToDot1p 0).run.run Memory.responder
        (leaves (MapTable.create .tcColorToDot1p 0) (Memory.new 0))).1.isSome = true ∧
      ((colorClient 4096 ["all", "GREEN", "1"]).commit.run.run Memory.responder
        bareColors).1.isSome = true ∧
      ((colorClient 4097 ["1", "GREEN", "5"]).commit.run.run Memory.responder
        halfColors).1.isSome = true := by
    decide +kernel
  rcases runs with ⟨ran, ranAgain, filled, otherFilled⟩
  rcases ends_leaves ran with ⟨_, one⟩
  rcases ends_leaves ranAgain with ⟨_, two⟩
  rcases ends_leaves filled with ⟨_, three⟩
  rcases ends_leaves otherFilled with ⟨_, four⟩
  have bare : bareColors.ClientMade .tcColorToDot1p 0 :=
    .created (.created (.start rfl) one) two
  have half : halfColors.ClientMade .tcColorToDot1p 0 :=
    .committed bare (foldlM_colorEdit (by decide +kernel)) three
  exact .committed half (foldlM_colorEdit (by decide +kernel)) four

/-! ## Deletion -/

/-- In a store where clients of one switch have made the tables and entries of the type,
deleting a table removes it with its entries and leaves everything else as it is, or it
fails and leaves the store alone. It succeeds exactly if the table is there and no failure
rule applies to an operation of the batch. -/
theorem delete_removes_table_and_entries {memory : Memory} {table : MapTable}
    (made : memory.ClientMade table.mapType table.switchId)
    (available : memory.unavailable = 0) :
    ∃ result after, table.delete.run.Ends Memory.responder memory result after ∧
      (result = .ok () ∧ after = { memory with
          contents := memory.contents.without table
          log := memory.log ++ table.removals memory.contents } ∨
        (∃ error, result = .error error) ∧ after = memory) ∧
      (result = .ok () ↔ table.IsStoredIn memory.contents ∧
        ∀ operation ∈ table.removals memory.contents, ∀ rule ∈ memory.rules,
          ¬rule.applies operation = true) := by
  have kept := made.kept
  by_cases has : table.IsStoredIn memory.contents
  · rcases Memory.transact_removals kept has with
      ⟨unruled, answers, accepted⟩ | ⟨ruled, error, refused⟩
    · exact ⟨.ok (), _, delete_ends_of_isStoredIn kept available has accepted,
        .inl ⟨rfl, rfl⟩, iff_of_true rfl ⟨has, unruled⟩⟩
    · exact ⟨_, _, delete_ends_of_isStoredIn kept available has refused,
        .inr ⟨⟨_, rfl⟩, rfl⟩,
        iff_of_false (by simp [Except.mapError, Except.map]) fun holds => ruled holds.2⟩
  · rcases delete_ends_of_missing kept available has with ⟨error, failed⟩
    exact ⟨.error error, memory, failed, .inr ⟨⟨error, rfl⟩, rfl⟩,
      iff_of_false (by simp) fun holds => has holds.1⟩

/-- Of two tables that have entries with the same keys the first is deleted. -/
theorem delete_removes_table_and_entries_colors :
    bothColors.ClientMade .tcColorToDot1p 0 ∧ bothColors.contents.objects.length = 6 ∧
      ∃ after, (colorTable 4096).delete.run.Ends Memory.responder bothColors
        (.ok ()) after ∧
        after.contents.objects.length = 2 ∧
        (colorTable 4097).IsStoredIn after.contents := by
  have facts : bothColors.unavailable = 0 ∧ bothColors.rules = [] ∧
      bothColors.contents.objects.length = 6 ∧
      (colorTable 4096).IsStoredIn bothColors.contents ∧
      (bothColors.contents.without (colorTable 4096)).objects.length = 2 ∧
      (colorTable 4097).IsStoredIn (bothColors.contents.without (colorTable 4096)) := by
    decide +kernel
  rcases facts with ⟨available, unruled, all, has, left, hasOther⟩
  rcases @delete_removes_table_and_entries bothColors (colorTable 4096)
    clientMade_bothColors available with ⟨result, after, deleted, outcome, succeeds⟩
  have isOk :=
    succeeds.mpr ⟨has, fun operation _ rule member => by simp [unruled] at member⟩
  rcases outcome with ⟨-, same⟩ | ⟨⟨error, failed⟩, -⟩
  · rw [isOk, same] at deleted
    exact ⟨clientMade_bothColors, all, _, deleted, left, hasOther⟩
  · cases isOk.symm.trans failed

end MapTable

end SwitchQos
