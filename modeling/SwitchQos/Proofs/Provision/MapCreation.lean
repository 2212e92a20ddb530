import SwitchQos.Proofs.Provision.EntryOverlap
import SwitchQos.Proofs.Provision.ProfileNames
import SwitchQos.Proofs.Store.Numbering

namespace SwitchQos

/-! What the global nodes of a configuration leave in a store, node by node. A map takes
two transactions: one for its table, and one for all its entries, which need the id of the
table. So a map that fails may leave a table behind, but never one with entries, and no
other node fills it, as each gets an id of its own. -/

open Exchange

/-! ## What becomes of a node -/

/-- How a node was recorded, the id that it got and the objects that it has added. -/
structure Creation where
  tag : String
  outcome : Outcome
  id? : Option Nat := none
  added : List StoreObject := []

structure Creation.Records (creation : Creation) (tag target : String)
    (result : Except ProvisionError Nat) : Prop where
  tag : creation.tag = tag
  outcome : creation.outcome = .ofResult target result
  id? : creation.id? = result.toOption

/-- The id that stands behind the tag because of this node. -/
def Creation.noted (creation : Creation) (tag : String) : Option Nat :=
  if creation.tag = tag ∧ creation.outcome.status = .applied then creation.id? else none

def lastCreated (creations : List Creation) (tag : String) : Option Nat :=
  creations.reverse.findSome? fun creation => creation.noted tag

theorem lastCreated_cons {first : Creation} {rest : List Creation} {tag : String} :
    lastCreated (first :: rest) tag = (lastCreated rest tag).or (first.noted tag) := by
  rw [lastCreated, List.reverse_cons, List.findSome?_append, List.findSome?_singleton]
  rfl

namespace Names

variable {names : Names} {creation : Creation} {tag target : String}
  {result : Except ProvisionError Nat}

def afterMap (names : Names) (tag : String) : Except ProvisionError Nat → Names
  | .ok id => names.addMap tag id
  | .error _ => names

def tableAfter (table : Directory String Nat) (tag : String) :
    Except ProvisionError Nat → Directory String Nat
  | .ok id => table.insert tag id
  | .error _ => table

theorem maps_afterMap : (names.afterMap tag result).maps =
    tableAfter names.maps tag result := by
  cases result <;> rfl

theorem profiles_afterProfile :
    (names.afterProfile tag result).profiles = tableAfter names.profiles tag result := by
  cases result <;> rfl

theorem get?_tableAfter (records : creation.Records tag target result)
    (table : Directory String Nat) (name : String) :
    (tableAfter table tag result).get? name =
      (creation.noted name).or (table.get? name) := by
  rw [Creation.noted, records.tag, records.outcome, records.id?]
  cases result with
  | ok id =>
      rw [tableAfter, Directory.get?_insert]
      by_cases same : tag = name <;>
        simp [same, Outcome.ofResult, Outcome.applied, Except.toOption]
  | error error => simp [tableAfter, Outcome.ofResult, Outcome.failed]

end Names

namespace MapNode

def target (node : MapNode) : String := node.mapType.name ++ " " ++ node.tag

def table (node : MapNode) (switchId id : Nat) : MapTable :=
  { mapType := node.mapType, switchId, id }

end MapNode

/-- What may become of a map node, in view of what the store has in the end: all that the
node authors is stored for its table, or nothing is. -/
inductive MapCourse (switchId : Nat) (contents : Contents)
    (node : MapNode) : Creation → Prop
  | applied {id : Nat} {authored : List (List (String × AttrValue))}
      {entries : List StoreObject} (provisionable : node.mapType.isProvisionable = true)
      (authors : node.authored = .ok authored)
      (stores : List.Forall₂ ((node.table switchId id).address.Stores id)
        authored entries)
      (isStored : (node.table switchId id).object ∈ contents.objects)
      (filled : contents.entriesOf node.mapType
        (node.table switchId id).object = entries) :
      MapCourse switchId contents node
        ⟨node.tag, .applied node.target, some id,
          (node.table switchId id).object :: entries⟩
  | failed (provisionable : node.mapType.isProvisionable = true)
      (error : ProvisionError) :
      MapCourse switchId contents node ⟨node.tag, .failed node.target error, none, []⟩
  | emptied {id : Nat} (provisionable : node.mapType.isProvisionable = true)
      (error : ProvisionError)
      (isStored : (node.table switchId id).object ∈ contents.objects)
      (empty : contents.entriesOf node.mapType (node.table switchId id).object = []) :
      MapCourse switchId contents node
        ⟨node.tag, .failed node.target error, none, [(node.table switchId id).object]⟩
  | skipped (unprovisionable : node.mapType.isProvisionable = false) :
      MapCourse switchId contents node
        ⟨node.tag, .skipped node.target notProvisioned, none, []⟩

inductive ProfileCourse (switchId : Nat) (node : ProfileNode) : Creation → Prop
  | applied {id : Nat} {stored : StoreObject}
      (renders : stored.Renders switchId node id) :
      ProfileCourse switchId node
        ⟨node.tag, .applied ("scheduler profile " ++ node.tag), some id, [stored]⟩
  | failed (error : ProvisionError) :
      ProfileCourse switchId node
        ⟨node.tag, .failed ("scheduler profile " ++ node.tag) error, none, []⟩

/-! ## Stores that grow -/

namespace Contents

variable {before middle after contents : Contents} {added first later : List StoreObject}
  {mapType : MapType} {table : StoreObject}

/-- The store has grown by the objects, none of which is an entry of a table
that was there. -/
structure GrowsBy (before : Contents) (added : List StoreObject)
    (after : Contents) : Prop where
  objects : after.objects = before.objects ++ added
  apart : ∀ object ∈ added, ∀ mapType, ∀ table ∈ before.objects,
    table.classPath = (ObjectClass.mapTable mapType).path →
    ¬belongsTo mapType table object = true

theorem growsBy_self (contents : Contents) : contents.GrowsBy [] contents :=
  ⟨(List.append_nil _).symm, by simp⟩

theorem GrowsBy.trans (early : before.GrowsBy first middle)
    (late : middle.GrowsBy later after) :
    before.GrowsBy (first ++ later) after where
  objects := by rw [late.objects, early.objects, List.append_assoc]
  apart := by
    intro object member mapType table isStored isTable
    rcases List.mem_append.mp member with isFirst | isLater
    · exact early.apart object isFirst mapType table isStored isTable
    · refine late.apart object isLater mapType table ?_ isTable
      rw [early.objects]
      exact List.mem_append_left _ isStored

theorem GrowsBy.mem (grows : before.GrowsBy added after) {object : StoreObject}
    (member : object ∈ added) : object ∈ after.objects := by
  rw [grows.objects]
  exact List.mem_append_right _ member

theorem GrowsBy.subset (grows : before.GrowsBy added after) :
    before.objects ⊆ after.objects := by
  rw [grows.objects]
  exact List.subset_append_left _ _

theorem GrowsBy.entriesOf_eq (grows : before.GrowsBy added after)
    (isStored : table ∈ before.objects)
    (isTable : table.classPath = (ObjectClass.mapTable mapType).path) :
    after.entriesOf mapType table = before.entriesOf mapType table := by
  have others : added.filter (belongsTo mapType table) = [] :=
    List.filter_eq_nil_iff.mpr fun object member =>
      grows.apart object member mapType table isStored isTable
  rw [entriesOf, grows.objects, List.filter_append, others, List.append_nil, entriesOf]

theorem Intact.freshFor (intact : contents.Intact)
    (free : contents.NextIdFree (.mapTable mapType)) : contents.FreshFor mapType where
  room := free.1
  free := by
    intro stored member isOf
    have unused : stored.get? ((ObjectClass.mapTable mapType).pathOf "id") ≠
        some (Storage.uint64.word contents.nextId) := by
      intro hasNext
      rcases isOf with isTable | isEntry
      · exact free.2 stored (mem_ofClass_iff.mpr ⟨member, isTable⟩) hasNext
      · rcases intact.owned stored member mapType isEntry with
          ⟨id, hasId, table, isStored, isTable, tableId⟩
        rw [ObjectClass.pathOf_id_entry, hasNext] at hasId
        cases hasId
        exact free.2 table (mem_ofClass_iff.mpr ⟨isStored, isTable⟩) tableId
    exact ⟨by rwa [(intact.plain stored member).lookup], unused⟩

end Contents

namespace MapCourse

variable {switchId : Nat} {before after : Contents} {node : MapNode} {creation : Creation}
  {added : List StoreObject}

theorem of_growsBy (course : MapCourse switchId before node creation)
    (grows : before.GrowsBy added after) : MapCourse switchId after node creation := by
  cases course with
  | applied provisionable authors stores isStored filled =>
      exact .applied provisionable authors stores (grows.subset isStored)
        ((grows.entriesOf_eq isStored MapTable.classPath_object).trans filled)
  | failed provisionable error => exact .failed provisionable error
  | emptied provisionable error isStored empty =>
      exact .emptied provisionable error (grows.subset isStored)
        ((grows.entriesOf_eq isStored MapTable.classPath_object).trans empty)
  | skipped unprovisionable => exact .skipped unprovisionable

end MapCourse

/-! ## One map -/

namespace Memory

variable {memory : Memory} {table : MapTable} {entries : List StoreObject}

theorem growsBy_withTable (isNext : table.id = memory.contents.nextId)
    (fresh : memory.contents.FreshFor table.mapType)
    {authored : List (List (String × AttrValue))}
    (stores : List.Forall₂ (table.address.Stores table.id) authored entries) :
    memory.contents.GrowsBy (table.object :: entries)
      (memory.withTable table entries).contents where
  objects := List.append_assoc ..
  apart := by
    intro object member mapType other isStored isTable belongs
    rw [Contents.belongsTo, Bool.and_eq_true, decide_eq_true_eq,
      decide_eq_true_eq] at belongs
    rcases List.mem_cons.mp member with rfl | isEntry
    · cases ObjectClass.path_injective (MapTable.classPath_object.symm.trans belongs.1)
    · rcases Results.exists_left stores isEntry with ⟨values, -, stores⟩
      cases ObjectClass.path_injective (stores.classPath.symm.trans belongs.1)
      -- An older table of the type would have the next id.
      refine (fresh.free other isStored (.inl isTable)).2 ?_
      have hasId := stores.id
      rwa [TableAddress.entryClass, ObjectClass.pathOf_id_entry,
        ObjectClass.pathOf_id_table,
        belongs.2, isNext, ← ObjectClass.pathOf_id_table] at hasId

/-- Where the table can be created, its id is one that no table or entry has. -/
theorem freshFor_of_create (intact : memory.contents.Intact) {created : StoreObject}
    {contents : Contents}
    (carried : memory.contents.create (.mapTable table.mapType) table.request =
      .ok (created, contents)) : memory.contents.FreshFor table.mapType :=
  intact.freshFor ((Contents.create_unnumbered_eq_ok_iff rfl MapTable.get?_id_request
    intact.plain ObjectClass.keyData_assemble).mp carried).1

theorem createTable_cases (unstaged : table.cleared = table)
    (isNext : table.id = memory.contents.nextId) :
    (∃ error, (MapTable.create table.mapType table.switchId).run.Ends
      Memory.responder memory (.error error) memory) ∨
    memory.contents.create (.mapTable table.mapType) table.request =
        .ok (table.object, ⟨memory.contents.objects ++ [table.object],
          memory.contents.nextId + 1⟩) ∧
      (MapTable.create table.mapType table.switchId).run.Ends Memory.responder
        memory (.ok table) (memory.withTable table []) := by
  cases built : TableAddress.tableObject ⟨table.mapType, table.switchId, none⟩ with
  | error cause =>
      refine .inl ⟨.codec cause, ?_⟩
      rw [MapTable.create, built]
      rfl
  | ok request =>
      rcases TableAddress.tableObject_eq_ok_iff.mp built with ⟨legacyFits, -, rfl⟩
      cases performed : memory.contents.performAll memory.rules
          [⟨.create, table.request⟩] with
      | error reason =>
          have refused : Memory.responder.transact _ _ = _ := transact_of_error performed
          exact .inl ⟨_, Task.ends_bind (Task.ends_ofCodec built)
            (Task.ends_bind_iff.mpr (.inr ⟨_, Task.ends_transact_refused refused, rfl⟩))⟩
      | ok outcome =>
          have accepted := transact_of_ok performed
          rcases carryOut_of_transact MapTable.classPath_request accepted with
            ⟨created, contents, carried, answers, same⟩
          rcases Contents.create_eq_ok_iff.mp carried with ⟨-, completed, -, -, after⟩
          rw [completed?_request isNext, Option.ite_none_right_eq_some] at completed
          rcases completed with ⟨room, isTable⟩
          cases isTable
          rw [Contents.idAfter, if_pos needsId_request] at after
          subst after
          rw [answers, same] at accepted
          refine .inr ⟨carried, create_accepted (isNext ▸ room) unstaged legacyFits ?_⟩
          rw [accepted]
          simp [withTable]

theorem createEntries_cases
    (samePath : ∀ entry ∈ entries, entry.classPath =
      (ObjectClass.mapEntry table.mapType).path)
    (unstaged : table.cleared = table) :
    (∃ error, (MapTable.commit { table with created := entries }).run.Ends
      Memory.responder (memory.withTable table []) (.error error)
      (memory.withTable table [])) ∨
    (MapTable.commit { table with created := entries }).run.Ends Memory.responder
      (memory.withTable table []) (.ok table) (memory.withTable table entries) := by
  cases performed : (memory.withTable table []).contents.performAll
      (memory.withTable table []).rules (entries.map (Operation.mk .create)) with
  | error reason =>
      have rejected : Memory.responder.transact _ _ = _ := transact_of_error performed
      have some : entries ≠ [] := by
        rintro rfl
        cases performed
      exact .inl (MapTable.commit_refused unstaged some rejected)
  | ok outcome =>
      rcases outcome with ⟨answers, contents⟩
      have accepted := transact_of_ok performed
      cases Contents.contents_of_createEntries samePath performed
      have added : Memory.responder.transact (entries.map (Operation.mk .create))
          (memory.withTable table []) =
          (.ok answers, memory.withTable table entries) := by
        simpa [withTable, Memory.responder] using accepted
      refine .inr (MapTable.commit_ends unstaged added ?_)
      rintro rfl
      rfl

end Memory

namespace Provisioner

variable {provisioner : Provisioner} {memory : Memory} {names : Names}

/-- A map fails before it has a table or before it has entries, or it gets them all. -/
theorem createMap_cases (provisioner : Provisioner) (node : MapNode) (memory : Memory) :
    let table := provisioner.nextTable node memory
    (∃ error, (provisioner.createMap node).run.Ends Memory.responder memory (.error error)
      memory) ∨
    memory.contents.create (.mapTable node.mapType) table.request =
        .ok (table.object, ⟨memory.contents.objects ++ [table.object],
          memory.contents.nextId + 1⟩) ∧
      ((∃ error, (provisioner.createMap node).run.Ends Memory.responder
        memory (.error error)
          (memory.withTable table [])) ∨
        ∃ lists, (node.entries.mapM fun entry =>
            table.address.entryObjects entry.authored node.range .full) = .ok lists ∧
          (provisioner.createMap node).run.Ends Memory.responder memory
            (.ok memory.contents.nextId) (memory.withTable table lists.flatten)) := by
  intro table
  rcases @Memory.createTable_cases memory table rfl rfl with
    ⟨error, refused⟩ | ⟨carried, created⟩
  · exact .inl ⟨error, Task.ends_bind_iff.mpr (.inr ⟨error, refused, rfl⟩)⟩
  refine .inr ⟨carried, ?_⟩
  cases staged : node.entries.foldlM (fun table entry =>
      (table.add entry.authored node.range).map (·.2)) table with
  | error error =>
      have failed : (ExceptT.mk (.done (node.entries.foldlM (fun table entry =>
          (table.add entry.authored node.range).map (·.2)) table)) : Task
            MapTable).run.Ends
          Memory.responder (memory.withTable table []) (.error error)
          (memory.withTable table []) := by
        rw [staged]
        rfl
      exact .inl ⟨error, Task.ends_bind created
        (Task.ends_bind_iff.mpr (.inr ⟨error, failed, rfl⟩))⟩
  | ok filled =>
      rcases MapTable.foldlM_add_eq_ok staged with ⟨lists, built, rfl⟩
      rcases TableAddress.stores_nodeObjects rfl rfl built with
        ⟨authored, authors, stores⟩
      have samePath : ∀ entry ∈ lists.flatten,
          entry.classPath = (ObjectClass.mapEntry node.mapType).path := by
        intro entry member
        rcases Results.exists_left stores member with ⟨values, -, stores⟩
        exact stores.classPath
      rcases @Memory.createEntries_cases memory table _ samePath rfl with
        ⟨error, refused⟩ | committed
      · exact .inl ⟨error, Task.ends_bind created (Task.ends_bind (Task.ends_done staged)
          (Task.ends_bind_iff.mpr (.inr ⟨error, refused, rfl⟩)))⟩
      · exact .inr ⟨lists, built,
          Task.ends_bind created (Task.ends_bind (Task.ends_done staged)
          (Task.ends_bind committed (Task.ends_pure _)))⟩

theorem createMap_course (intact : memory.contents.Intact) {node : MapNode}
    (provisionable : node.mapType.isProvisionable = true) :
    ∃ result after creation,
      (provisioner.createMap node).run.Ends Memory.responder memory result after ∧
      MapCourse provisioner.switchId after.contents node creation ∧
      memory.contents.GrowsBy creation.added after.contents ∧
      creation.Records node.tag node.target result := by
  rcases createMap_cases provisioner node memory with ⟨error, failed⟩ | ⟨carried, created⟩
  · exact ⟨_, _, _, failed, .failed provisionable error, Contents.growsBy_self _,
      ⟨rfl, rfl, rfl⟩⟩
  have fresh : memory.contents.FreshFor node.mapType :=
    @Memory.freshFor_of_create memory (provisioner.nextTable node memory)
      intact _ _ carried
  rcases created with ⟨error, failed⟩ | ⟨lists, built, applied⟩
  · have grows :=
      @Memory.growsBy_withTable memory (provisioner.nextTable node memory) [] rfl fresh
      [] .nil
    exact ⟨_, _, _, failed, .emptied provisionable error (grows.mem List.mem_cons_self)
      (Memory.entriesOf_withTable rfl fresh .nil), grows, ⟨rfl, rfl, rfl⟩⟩
  · rcases TableAddress.stores_nodeObjects rfl rfl built with ⟨authored, authors, stores⟩
    have grows :=
      @Memory.growsBy_withTable memory (provisioner.nextTable node memory) _ rfl fresh
      authored stores
    exact ⟨_, _, _, applied,
      .applied provisionable authors stores (grows.mem List.mem_cons_self)
      (Memory.entriesOf_withTable rfl fresh stores), grows, ⟨rfl, rfl, rfl⟩⟩

/-! ## All maps -/

theorem createMaps_ends_cons {node : MapNode} {rest : List MapNode}
    {middle after : Memory} {result : Except ProvisionError Nat}
    {outcomes : List Outcome} {last : Names}
    (provisionable : node.mapType.isProvisionable = true)
    (first : (provisioner.createMap node).run.Ends Memory.responder memory result middle)
    (others : (provisioner.createMaps rest (names.afterMap node.tag result)).Ends
      Memory.responder middle (outcomes, last) after) :
    (provisioner.createMaps (node :: rest) names).Ends Memory.responder memory
      (.ofResult node.target result :: outcomes, last) after := by
  rw [createMaps, if_pos provisionable]
  refine first.bind ?_
  cases result <;> exact others.map fun later => (_ :: later.1, later.2)

theorem createMaps_ends_skip {node : MapNode} {rest : List MapNode} {after : Memory}
    {outcomes : List Outcome} {last : Names}
    (unprovisionable : node.mapType.isProvisionable = false)
    (others : (provisioner.createMaps rest names).Ends Memory.responder memory
      (outcomes, last) after) :
    (provisioner.createMaps (node :: rest) names).Ends Memory.responder memory
      (.skipped node.target notProvisioned :: outcomes, last) after := by
  rw [createMaps, if_neg (Bool.eq_false_iff.mp unprovisionable)]
  exact others.map fun later => (_ :: later.1, later.2)

/-- The maps are created one by one; none takes anything from those before it. -/
theorem createMaps_courses (intact : memory.contents.Intact) (nodes : List MapNode) :
    ∃ creations later after,
      (provisioner.createMaps nodes names).Ends Memory.responder memory
        (creations.map Creation.outcome, later) after ∧
      List.Forall₂ (MapCourse provisioner.switchId after.contents) nodes creations ∧
      memory.contents.GrowsBy (creations.flatMap Creation.added) after.contents ∧
      ∀ tag, later.maps.get? tag =
        (lastCreated creations tag).or (names.maps.get? tag) := by
  induction nodes generalizing memory names with
  | nil => exact ⟨[], names, memory, rfl, .nil, Contents.growsBy_self _, fun _ => rfl⟩
  | cons node rest induction =>
      cases provisionable : node.mapType.isProvisionable with
      | true =>
          rcases createMap_course intact provisionable with
            ⟨result, middle, creation, first, course, grows, records⟩
          have intactAfter : middle.contents.Intact :=
            Memory.kept_of_submits submits_createMap (fun _ adding operation member =>
              Contents.Intact.keeps (adding operation member).2.1) first.reaches intact
          rcases @induction middle (names.afterMap node.tag result) intactAfter with
            ⟨creations, later, after, others, courses, growsLater, noted⟩
          have ends := createMaps_ends_cons provisionable first others
          rw [← records.outcome] at ends
          refine ⟨creation :: creations, later, after, ends,
            .cons (course.of_growsBy growsLater) courses,
            grows.trans growsLater, fun tag => ?_⟩
          rw [noted, Names.maps_afterMap, Names.get?_tableAfter records, lastCreated_cons,
            Option.or_assoc]
      | false =>
          rcases @induction memory names intact with
            ⟨creations, later, after, others, courses, grows, noted⟩
          refine ⟨⟨node.tag, .skipped node.target notProvisioned, none, []⟩ ::
            creations, later, after, createMaps_ends_skip provisionable others,
            .cons (.skipped provisionable) courses, grows, fun tag => ?_⟩
          rw [noted, lastCreated_cons]
          simp [Creation.noted, Outcome.skipped]

/-! ## Profiles -/

theorem growsBy_of_renders {after : Memory} {switchId id : Nat} {node : ProfileNode}
    {stored : StoreObject} (renders : stored.Renders switchId node id)
    (added : after.contents.objects = memory.contents.objects ++ [stored]) :
    memory.contents.GrowsBy [stored] after.contents where
  objects := added
  apart := by
    intro object member mapType table _ _ belongs
    rw [List.mem_singleton.mp member, Contents.belongsTo, Bool.and_eq_true,
      decide_eq_true_eq, renders.classPath] at belongs
    cases ObjectClass.path_injective belongs.1

theorem createProfile_course (memory : Memory) (node : ProfileNode) :
    ∃ result after creation,
      (provisioner.scheduler.createProfile node.tag node.attrTexts).run.Ends
        Memory.responder memory result after ∧
      ProfileCourse provisioner.switchId node creation ∧
      memory.contents.GrowsBy creation.added after.contents ∧
      creation.Records node.tag ("scheduler profile " ++ node.tag) result := by
  rcases createProfile_cases provisioner.scheduler node memory with
    ⟨error, failed⟩ | ⟨-, stored, id, after, -, -, renders, added, created⟩
  · exact ⟨_, _, _, failed, .failed error, Contents.growsBy_self _, ⟨rfl, rfl, rfl⟩⟩
  · exact ⟨_, _, _, created, .applied renders, growsBy_of_renders renders added,
      ⟨rfl, rfl, rfl⟩⟩

theorem createProfiles_each {Course : ProfileNode → Creation → Prop}
    (each : ∀ memory node, ∃ result after creation,
      (provisioner.scheduler.createProfile node.tag node.attrTexts).run.Ends
        Memory.responder memory result after ∧
      Course node creation ∧ memory.contents.GrowsBy creation.added after.contents ∧
      creation.Records node.tag ("scheduler profile " ++ node.tag) result)
    (memory : Memory) (nodes : List ProfileNode) :
    ∃ creations later after,
      (provisioner.createProfiles nodes names).Ends Memory.responder memory
        (creations.map Creation.outcome, later) after ∧
      List.Forall₂ Course nodes creations ∧
      memory.contents.GrowsBy (creations.flatMap Creation.added) after.contents ∧
      ∀ tag, later.profiles.get? tag =
        (lastCreated creations tag).or (names.profiles.get? tag) := by
  induction nodes generalizing memory names with
  | nil => exact ⟨[], names, memory, rfl, .nil, Contents.growsBy_self _, fun _ => rfl⟩
  | cons node rest induction =>
      rcases each memory node with
        ⟨result, middle, creation, first, course, grows, records⟩
      rcases @induction (names.afterProfile node.tag result) middle with
        ⟨creations, later, after, others, courses, growsLater, noted⟩
      have ends := createProfiles_ends_cons first others
      rw [← records.outcome] at ends
      refine ⟨creation :: creations, later, after, ends, .cons course courses,
        grows.trans growsLater, fun tag => ?_⟩
      rw [noted, Names.profiles_afterProfile, Names.get?_tableAfter records,
        lastCreated_cons, Option.or_assoc]

/-! ## Globals -/

/-- Each node is recorded once, in declared order. A map that was applied has added its
table and an entry for all that it authors; one that failed has added a table without
entries at most, and one that was skipped nothing. Afterwards a tag stands for the last
node that was applied. -/
theorem initGlobals_all_or_empty
    (reached : memory.ReachedBy fun operation => operation.object.IsPlain)
    (node : GlobalsNode) :
    ∃ maps profiles later after,
      (provisioner.initGlobals names node).Ends Memory.responder memory
        (⟨"switch globals", maps.map Creation.outcome ++
          profiles.map Creation.outcome⟩, later) after ∧
      List.Forall₂ (MapCourse provisioner.switchId after.contents) node.maps maps ∧
      List.Forall₂ (ProfileCourse provisioner.switchId) node.profiles profiles ∧
      memory.contents.GrowsBy (maps.flatMap Creation.added ++
        profiles.flatMap Creation.added) after.contents ∧
      (∀ tag, later.maps.get? tag = (lastCreated maps tag).or (names.maps.get? tag)) ∧
      ∀ tag, later.profiles.get? tag =
        (lastCreated profiles tag).or (names.profiles.get? tag) := by
  rcases @createMaps_courses provisioner memory names reached.intact node.maps with
    ⟨maps, mapped, middle, mapsEnd, mapCourses, mapsGrow, mapsNoted⟩
  rcases @createProfiles_each provisioner mapped _ createProfile_course middle
      node.profiles with
    ⟨profiles, later, after, profilesEnd, profileCourses, profilesGrow, profilesNoted⟩
  have sameMaps := maps_of_createProfiles profilesEnd
  have sameProfiles := (passes_createMaps mapsEnd).2
  have kept := mapCourses.imp fun _ _ course => MapCourse.of_growsBy course profilesGrow
  refine ⟨maps, profiles, later, after, mapsEnd.bind (profilesEnd.bind rfl),
    kept, profileCourses, mapsGrow.trans profilesGrow, fun tag => ?_, fun tag => ?_⟩
  · rw [sameMaps, mapsNoted]
  · rw [profilesNoted, sameProfiles]

/-- Three maps of one name: the first can be created, the second is of a type that is
skipped, and the third covers a priority twice. -/
def threeMaps : GlobalsNode :=
  { maps := [wildcardThenSpecific 1, { mapType := .tcColorToDot1p, tag := "dot1p" },
      wildcardThenSpecific 5],
    profiles := [{ tag := "fast" }] }

def withoutProfiles : Memory :=
  (Memory.new 0).refuse ⟨.create, ObjectClass.schedulerProfile.path, none⟩

/-- The name stands for the first map. There are two tables, but only the
first has entries. -/
theorem initGlobals_all_or_empty_threeMaps :
    withoutProfiles.ReachedBy (fun operation => operation.object.IsPlain) ∧
      ∃ maps profiles later after,
        (initGlobals ⟨0, 0⟩ {} threeMaps).Ends Memory.responder withoutProfiles
          (⟨"switch globals", maps.map Creation.outcome ++
            profiles.map Creation.outcome⟩, later) after ∧
        List.Forall₂ (MapCourse 0 after.contents) threeMaps.maps maps ∧
        List.Forall₂ (ProfileCourse 0) threeMaps.profiles profiles ∧
        after.contents.objects = maps.flatMap Creation.added ++
          profiles.flatMap Creation.added ∧
        after.contents.objects.map (·.classPath) =
          [(ObjectClass.mapTable .dot1pToTc).path, (ObjectClass.mapEntry .dot1pToTc).path,
            (ObjectClass.mapEntry .dot1pToTc).path,
            (ObjectClass.mapEntry .dot1pToTc).path,
            (ObjectClass.mapTable .dot1pToTc).path] ∧
        later.maps.get? "dot1p" = some 4096 ∧ lastCreated maps "dot1p" = some 4096 := by
  have reached : withoutProfiles.ReachedBy fun operation => operation.object.IsPlain :=
    .refuse (.new 0) _
  rcases @initGlobals_all_or_empty ⟨0, 0⟩ withoutProfiles {} reached threeMaps with
    ⟨maps, profiles, later, after, ends, mapCourses, profileCourses, grows, noted, -⟩
  have ran : ((initGlobals ⟨0, 0⟩ {} threeMaps).run Memory.responder
        withoutProfiles).2.contents.objects.map (·.classPath) =
          [(ObjectClass.mapTable .dot1pToTc).path, (ObjectClass.mapEntry .dot1pToTc).path,
            (ObjectClass.mapEntry .dot1pToTc).path,
            (ObjectClass.mapEntry .dot1pToTc).path,
            (ObjectClass.mapTable .dot1pToTc).path] ∧
      ((initGlobals ⟨0, 0⟩ {} threeMaps).run Memory.responder withoutProfiles).1.map
        (fun result => result.2.maps.get? "dot1p") = some (some 4096) := by decide +kernel
  rw [ends] at ran
  rcases ran with ⟨stored, named⟩
  have named : later.maps.get? "dot1p" = some 4096 := Option.some.inj named
  refine ⟨reached, maps, profiles, later, after, ends, mapCourses,
    profileCourses, grows.objects, stored, named, ?_⟩
  rw [noted] at named
  exact (Option.or_none).symm.trans named

end Provisioner

end SwitchQos
