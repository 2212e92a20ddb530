import SwitchQos.Proofs.Provision.TreeBindings
import SwitchQos.Proofs.Store.Overwriting

namespace SwitchQos

/-! The objects that are set when a scheduler tree is built. What they write is what
the tree asks for, beside attributes that address the stored objects and so have their
values already. Hence no setting undoes another, and none changes what groups and
queues are found by. -/

/-! ## Settings -/

def groupObject (switchId id : Nat) (rows : List (String × StoreValue)) : StoreObject :=
  ObjectClass.schedulerGroup.assemble
    (rows ++ [("id", Storage.uint64.word id),
      ("switch-id", Storage.uint32.word switchId)])

def queueObject (switchId code : Nat) (key : QueueKey) (profile : Nat) : StoreObject :=
  ObjectClass.queue.assemble
    (("scheduler-profile-id", Storage.uint64.word profile) :: key.attrs switchId code)

theorem get?_groupObject {switchId id : Nat}
    {rows : List (String × StoreValue)} {attr : String}
    (has : ObjectClass.schedulerGroup.Has attr)
    (hasAll : ∀ row ∈ rows, ObjectClass.schedulerGroup.Has row.1) :
    (groupObject switchId id rows).get? (ObjectClass.schedulerGroup.pathOf attr) =
      (Directory.findRow attr rows).or (Directory.findRow attr
        [("id", Storage.uint64.word id),
          ("switch-id", Storage.uint32.word switchId)]) := by
  rw [groupObject, ObjectClass.get?_assemble has, Directory.findRow_append]
  intro row member
  rcases List.mem_append.mp member with own | shared
  · exact hasAll row own
  · simp only [List.mem_cons, List.not_mem_nil, or_false] at shared
    rcases shared with rfl | rfl <;> rfl

theorem entity?_groupObject {switchId id : Nat} {rows : List (String × StoreValue)}
    (hasAll : ∀ row ∈ rows, ObjectClass.schedulerGroup.Has row.1)
    (noId : Directory.findRow "id" rows = none) :
    (groupObject switchId id rows).entity? =
      some ⟨.schedulerGroup, [Storage.uint64.word id]⟩ := by
  have plain : (groupObject switchId id rows).IsPlain := ObjectClass.keyData_assemble
  have hasId : ObjectClass.schedulerGroup.Has "id" := by decide
  refine StoreObject.entity?_eq_some_iff.mpr ⟨ObjectClass.classPath_assemble, ?_⟩
  rw [ObjectClass.identity?_eq_some_singleton
    (rfl : ObjectClass.schedulerGroup.keyAttrs = ["id"])]
  refine ⟨_, rfl, ?_⟩
  rw [plain.lookup, get?_groupObject hasId hasAll, noId]
  rfl

theorem get?_queueObject {switchId code profile : Nat} {key : QueueKey} {attr : String}
    (has : ObjectClass.queue.Has attr) :
    (queueObject switchId code key profile).get? (ObjectClass.queue.pathOf attr) =
      Directory.findRow attr
        (("scheduler-profile-id", Storage.uint64.word profile) ::
          key.attrs switchId code) := by
  refine ObjectClass.get?_assemble has ?_
  simp [QueueKey.attrs]
  decide

theorem entity?_queueObject {switchId code profile : Nat} {key : QueueKey} :
    (queueObject switchId code key profile).entity? = some (key.entity code) := by
  have plain : (queueObject switchId code key profile).IsPlain :=
    ObjectClass.keyData_assemble
  refine StoreObject.entity?_eq_some_iff.mpr ⟨ObjectClass.classPath_assemble, ?_⟩
  simp only [QueueKey.entity, ObjectClass.identity?_eq_some_iff, ObjectClass.keyAttrs,
    List.forall₂_cons, List.Forall₂.nil, plain.lookup, and_true]
  exact ⟨get?_queueObject (by decide), get?_queueObject (by decide),
    get?_queueObject (by decide)⟩

namespace SchedulerTree

section Settings

variable (tree : SchedulerTree) (names : Names) (contents : Contents)
  (switchId port : Nat)

def profileRows (group : GroupNode) : Set (List (String × StoreValue)) :=
  {rows | ∃ profile, group.profile.bind names.profiles.get? = some profile ∧
    rows = [("scheduler-profile-id", Storage.uint64.word profile)]}

def childrenRows (level : Nat) (group : GroupNode) : Set (List (String × StoreValue)) :=
  {rows | ∃ children ids, group.children = some children ∧
    children.mapM (tree.childId? contents port level) = some ids ∧
    rows = [("child_count", Storage.uint32.word children.length),
      ("child-list", .list (ids.map fun id : Nat => Storage.uint64.write id))]}

def groupSettings (level : Nat) (group : GroupNode) : Set StoreObject :=
  {object | ∃ id, (contents.groupIds port level)[group.number]? = some id ∧
    object ∈ groupObject switchId id ''
      (profileRows names group ∪ tree.childrenRows contents port level group)}

def queueSettings (queue : QueueNode) : Set StoreObject :=
  {object | ∃ code profile, SymbolFamily.queueType.encode queue.queueType = .ok code ∧
    queue.profile.bind names.profiles.get? = some profile ∧
    object = queueObject switchId code ⟨port, queue.queueType, queue.number⟩ profile}

def levelSettings (level : SchedulerLevel) : Set StoreObject :=
  {object | (∃ group ∈ level.groups,
      object ∈ tree.groupSettings names contents switchId port level.level group) ∨
    ∃ queue ∈ level.queues, object ∈ queueSettings names switchId port queue}

def settings : Set StoreObject :=
  {object | ∃ level ∈ tree.levels,
    object ∈ tree.levelSettings names contents switchId port level}

end Settings

/-! ## What settings write -/

section Writes

variable {tree : SchedulerTree} {names : Names} {contents : Contents} {memory : Memory}
  {switchId port : Nat} {old object : StoreObject} {path : String} {value : StoreValue}
  {level : Nat} {group : GroupNode} {rows : List (String × StoreValue)}

private theorem encode_profile {objectClass : ObjectClass}
    (found : objectClass.spec? "scheduler-profile-id" = some (.scalar .uint64))
    {profile : Nat} (fits : profile < countOfBits 64) :
    objectClass.encode "scheduler-profile-id" (.uint profile) =
      .ok (Storage.uint64.word profile) := by
  rw [ObjectClass.encode_eq_ok_iff found, AttrSpec.encode_uint_eq_ok_iff ⟨rfl, rfl⟩]
  exact ⟨fits, rfl⟩

theorem childId?_lt {child id : Nat}
    (resolved : tree.childId? contents port level child = some id) :
    id < countOfBits 64 := by
  have queueSpec : ObjectClass.queue.spec? "id" = some (.scalar .uint64) := rfl
  rw [childId?] at resolved
  split at resolved
  · cases resolved
  · split at resolved
    · rcases Option.bind_eq_some_iff.mp resolved with ⟨queue, -, located⟩
      rcases Option.bind_eq_some_iff.mp located with ⟨stored, -, hasId⟩
      exact ((ObjectClass.number?_eq_some_iff queueSpec ⟨rfl, rfl⟩).mp hasId).1
    · exact Contents.groupIds_lt (List.mem_of_getElem? resolved)

theorem encode_childList {children ids : List Nat}
    (resolved : children.mapM (tree.childId? contents port level) = some ids) :
    ObjectClass.schedulerGroup.encode "child-list" (.list ids) =
      .ok (.list (ids.map fun id : Nat => Storage.uint64.write id)) := by
  have found : ObjectClass.schedulerGroup.spec? "child-list" = some (.list .uint64) := rfl
  rw [ObjectClass.encode_eq_ok_iff found, AttrSpec.encode_list_eq_ok rfl rfl]
  · rfl
  · intro id member
    rcases Results.exists_left (Results.mapM_eq_some_iff.mp resolved) member with
        ⟨child, -, isChild⟩
    exact childId?_lt isChild

theorem encode_childCount {count : Nat} (fits : count < countOfBits 32) :
    ObjectClass.schedulerGroup.encode "child_count" (.uint count) =
      .ok (Storage.uint32.word count) := by
  have found : ObjectClass.schedulerGroup.spec? "child_count" =
    some (.scalar .uint32) := rfl
  rw [ObjectClass.encode_eq_ok_iff found, AttrSpec.encode_uint_eq_ok_iff ⟨rfl, rfl⟩]
  exact ⟨fits, rfl⟩

theorem asked_of_mem_rows
    (known : ∀ profile id, names.profiles.get? profile = some id → id < countOfBits 64)
    (few : ∀ children, group.children = some children → children.length < countOfBits 32)
    (isRows : rows ∈ profileRows names group ∪
      tree.childrenRows contents port level group)
    {row : String × StoreValue} (member : row ∈ rows) :
    ∃ asked, tree.groupAttr? names contents port level group row.1 = some asked ∧
      ObjectClass.schedulerGroup.encode row.1 asked = .ok row.2 := by
  rcases isRows with ⟨profile, asks, rfl⟩ | ⟨children, ids, declared, resolved, rfl⟩
  · rcases Option.bind_eq_some_iff.mp asks with ⟨name, -, isKnown⟩
    rw [List.mem_singleton.mp member]
    exact ⟨.uint profile, by simp [groupAttr?, asks],
      encode_profile rfl (known name _ isKnown)⟩
  · simp only [List.mem_cons, List.not_mem_nil, or_false] at member
    rcases member with rfl | rfl
    · exact ⟨.uint children.length, by simp [groupAttr?, declared],
        encode_childCount (few children declared)⟩
    · exact ⟨.list ids, by simp [groupAttr?, declared, resolved],
        encode_childList resolved⟩

theorem exists_row {attr : String} {asked : AttrValue}
    (known : ∀ profile id, names.profiles.get? profile = some id → id < countOfBits 64)
    (few : ∀ children, group.children = some children → children.length < countOfBits 32)
    (resolves : ∀ children, group.children = some children →
      ∃ ids, children.mapM (tree.childId? contents port level) = some ids)
    (asks : tree.groupAttr? names contents port level group attr = some asked)
    (encoded : ObjectClass.schedulerGroup.encode attr asked = .ok value) :
    ∃ rows ∈ profileRows names group ∪ tree.childrenRows contents port level group,
      Directory.findRow attr rows = some value := by
  rw [groupAttr?] at asks
  split at asks
  · rename_i isProfile
    subst isProfile
    rcases Option.map_eq_some_iff.mp asks with ⟨profile, isNamed, rfl⟩
    rcases Option.bind_eq_some_iff.mp isNamed with ⟨name, -, isKnown⟩
    rw [encode_profile rfl (known name profile isKnown)] at encoded
    cases encoded
    exact ⟨_, .inl ⟨profile, isNamed, rfl⟩, rfl⟩
  · split at asks
    · rename_i isList
      subst isList
      rcases Option.map_eq_some_iff.mp asks with ⟨ids, isResolved, rfl⟩
      rcases Option.bind_eq_some_iff.mp isResolved with ⟨children, declared, resolved⟩
      rw [encode_childList resolved] at encoded
      cases encoded
      exact ⟨_, .inr ⟨children, ids, declared, resolved, rfl⟩, rfl⟩
    · split at asks
      · rename_i isCount
        subst isCount
        rcases Option.map_eq_some_iff.mp asks with ⟨children, declared, rfl⟩
        rcases resolves children declared with ⟨ids, resolved⟩
        rw [encode_childCount (few children declared)] at encoded
        cases encoded
        exact ⟨_, .inr ⟨children, ids, declared, resolved, rfl⟩, rfl⟩
      · cases asks

theorem has_of_mem_rows
    (isRows : rows ∈ profileRows names group ∪
      tree.childrenRows contents port level group) :
    (∀ row ∈ rows, ObjectClass.schedulerGroup.Has row.1) ∧
    Directory.findRow "id" rows = none := by
  rcases isRows with ⟨profile, -, rfl⟩ | ⟨children, ids, -, -, rfl⟩
  · exact ⟨by simp; decide, rfl⟩
  · exact ⟨by simp; decide, rfl⟩

theorem groupObject_writes (serves : memory.Serves switchId port)
    (member : old ∈ memory.contents.objects) {id : Nat}
    (isGroup : old.IsGroup port level id)
    (written : (groupObject switchId id rows).get? path = some value) :
    (∃ row ∈ rows, path = ObjectClass.schedulerGroup.pathOf row.1 ∧ value = row.2) ∨
      old.get? path = some value ∧
        ∀ other, ¬tree.Asks names memory.contents port old path other := by
  have idSpec : ObjectClass.schedulerGroup.spec? "id" = some (.scalar .uint64) := rfl
  have switchSpec : ObjectClass.schedulerGroup.spec? "switch-id" =
    some (.scalar .uint32) := rfl
  have plain := serves.plain old member
  rcases ObjectClass.mem_of_get?_assemble written with ⟨row, isRow, rfl, rfl⟩
  rcases List.mem_append.mp isRow with own | shared
  · exact .inl ⟨row, own, rfl, rfl⟩
  · right
    simp only [List.mem_cons, List.not_mem_nil, or_false] at shared
    rcases shared with rfl | rfl
    · have hasId := ((plain.number?_eq_some_iff idSpec ⟨rfl, rfl⟩).mp isGroup.2.2.2).2
      exact ⟨hasId, fun other => not_asks_group "id" isGroup.1 (by decide) (by decide)⟩
    · have onSwitch := (serves.groups old member isGroup.1 isGroup.2.1).1
      have hasSwitch := ((plain.number?_eq_some_iff switchSpec ⟨rfl, rfl⟩).mp onSwitch).2
      exact ⟨hasSwitch, fun other =>
        not_asks_group "switch-id" isGroup.1 (by decide) (by decide)⟩

theorem queueObject_writes (serves : memory.Serves switchId port)
    (member : old ∈ memory.contents.objects) {key : QueueKey} {code profile : Nat}
    (isQueue : old.IsQueue key) (onPort : key.port = port)
    (encoded : SymbolFamily.queueType.encode key.queueType = .ok code)
    (written : (queueObject switchId code key profile).get? path = some value) :
    path = ObjectClass.queue.pathOf "scheduler-profile-id" ∧
        value = Storage.uint64.word profile ∨
      old.get? path = some value ∧
        ∀ other, ¬tree.Asks names memory.contents port old path other := by
  have switchSpec : ObjectClass.queue.spec? "switch-id" = some (.scalar .uint32) := rfl
  have plain := serves.plain old member
  rcases StoreObject.isQueue_iff.mp isQueue with ⟨-, -, otherCode, otherEncoded, found⟩
  rw [encoded] at otherEncoded
  cases otherEncoded
  rcases StoreObject.entity?_eq_some_iff.mp found with ⟨isOf, identified⟩
  simp only [QueueKey.entity, ObjectClass.identity?_eq_some_iff, ObjectClass.keyAttrs,
    List.forall₂_cons, plain.lookup] at identified
  rcases identified with ⟨hasPort, hasType, hasNumber, -⟩
  rcases ObjectClass.mem_of_get?_assemble written with ⟨row, isRow, rfl, rfl⟩
  simp only [QueueKey.attrs, List.mem_cons, List.not_mem_nil, or_false] at isRow
  rcases isRow with rfl | rfl | rfl | rfl | rfl
  · exact .inl ⟨rfl, rfl⟩
  · exact .inr ⟨hasNumber, fun other =>
      not_asks_queue "queue-number" isOf (by decide) (by decide)⟩
  · exact .inr ⟨hasType, fun other => not_asks_queue "type" isOf (by decide) (by decide)⟩
  · exact .inr ⟨hasPort, fun other =>
      not_asks_queue "port-id" isOf (by decide) (by decide)⟩
  · have onSwitch := serves.queues old member isOf (onPort ▸ isQueue.2.1)
    have hasSwitch := ((plain.number?_eq_some_iff switchSpec ⟨rfl, rfl⟩).mp onSwitch).2
    exact .inr ⟨hasSwitch, fun other =>
      not_asks_queue "switch-id" isOf (by decide) (by decide)⟩

theorem sameEntity_groupObject_iff (distinct : Contents.Distinct contents.objects)
    (isRows : rows ∈ profileRows names group ∪
      tree.childrenRows contents port level group)
    {id : Nat} (found : (contents.groupIds port level)[group.number]? = some id)
    (member : old ∈ contents.objects) :
    (groupObject switchId id rows).SameEntity old ↔ old.IsGroup port level id := by
  rcases has_of_mem_rows isRows with ⟨hasAll, noId⟩
  have entity : (groupObject switchId id rows).entity? = _ :=
    entity?_groupObject hasAll noId
  constructor
  · rintro ⟨shared, objectEntity, oldEntity⟩
    rcases Contents.mem_groupIds.mp (List.mem_of_getElem? found) with
      ⟨stored, isStored, isGroup⟩
    rw [entity] at objectEntity
    cases objectEntity
    rwa [distinct.eq_of_entity? member isStored oldEntity isGroup.entity?_eq]
  · intro isGroup
    exact ⟨_, entity, isGroup.entity?_eq⟩

theorem sameEntity_queueObject_iff {key : QueueKey} {code profile : Nat}
    (fits : key.port < countOfBits 32 ∧ key.number < countOfBits 32)
    (encoded : SymbolFamily.queueType.encode key.queueType = .ok code) :
    (queueObject switchId code key profile).SameEntity old ↔ old.IsQueue key := by
  rw [StoreObject.isQueue_iff, StoreObject.SameEntity, entity?_queueObject]
  constructor
  · rintro ⟨shared, same, oldEntity⟩
    cases same
    exact ⟨fits.1, fits.2, code, encoded, oldEntity⟩
  · rintro ⟨-, -, otherCode, otherEncoded, oldEntity⟩
    rw [encoded] at otherEncoded
    cases otherEncoded
    exact ⟨_, rfl, oldEntity⟩

end Writes

/-! ## Settings against the tree -/

section Asked

open StoreObject

variable {tree : SchedulerTree} {names : Names} {memory : Memory} {switchId port : Nat}
  {given : Set StoreObject} {old new object other : StoreObject} {path : String}
  {value : StoreValue}

theorem mem_levels_of_next? {level : Nat} {next : SchedulerLevel}
    (isNext : tree.next? level = some next) : next ∈ tree.levels := by
  have kept := List.mem_of_mem_drop (List.mem_of_mem_head? isNext)
  exact (List.dropWhile_sublist _).subset kept

theorem Fits.exists_childIds {contents : Contents} (fits : tree.Fits names contents port)
    (distinct : Contents.Distinct contents.objects) {level : SchedulerLevel}
    (isLevel : level ∈ tree.levels) {group : GroupNode} (isNode : group ∈ level.groups)
    {children : List Nat} (declared : group.children = some children) :
    ∃ ids, children.mapM (tree.childId? contents port level.level) = some ids := by
  rcases fits.children level isLevel group isNode children declared with ⟨-, inRange⟩
  have each : ∀ child ∈ children, ∃ id,
      tree.childId? contents port level.level child = some id := by
    intro child member
    rcases inRange child member with ⟨next, isNext, bound⟩
    rw [childId?, isNext]
    split at bound
    · rename_i leaf
      obtain ⟨stored, isStored, isQueue, readable⟩ :=
        fits.stored next (mem_levels_of_next? isNext) next.queues[child]
          (List.getElem_mem bound)
      rcases Option.isSome_iff_exists.mp readable with ⟨id, hasId⟩
      refine ⟨id, ?_⟩
      simp only [leaf, if_true, List.getElem?_eq_getElem bound, Option.bind_some]
      rw [Contents.queueId?_eq distinct isStored isQueue]
      exact hasId
    · rename_i inner
      exact ⟨_, by simp only [inner]; exact List.getElem?_eq_getElem bound⟩
  refine ⟨children.map fun child =>
    (tree.childId? contents port level.level child).getD 0, ?_⟩
  rw [Results.mapM_eq_some_iff, List.forall₂_map_right_iff, List.forall₂_same]
  intro child member
  rcases each child member with ⟨id, isChild⟩
  rw [isChild]
  rfl

/-- Every value that a setting writes is asked for by the tree, or is there already
and not asked for to be another. -/
theorem asks_of_setting (buildable : tree.Buildable names memory switchId port)
    (isSetting : object ∈ tree.settings names memory.contents switchId port)
    (member : old ∈ memory.contents.objects) (same : object.SameEntity old)
    (written : object.get? path = some value) :
    tree.Asks names memory.contents port old path value ∨
      old.get? path = some value ∧
        ∀ other, ¬tree.Asks names memory.contents port old path other := by
  obtain ⟨level, isLevel, ⟨group, isNode, id, found, rows, isRows, rfl⟩ |
    ⟨queue, isNode, code, profile, encoded, asks, rfl⟩⟩ := isSetting
  · have isGroup :=
      (sameEntity_groupObject_iff buildable.serves.distinct isRows found member).mp same
    rcases groupObject_writes buildable.serves member isGroup written with
      ⟨row, isRow, rfl, rfl⟩ | stays
    · have few := fun children declared =>
        (buildable.fits.children level isLevel group isNode children declared).1
      rcases asked_of_mem_rows buildable.known few isRows isRow with
        ⟨asked, asks, encoded⟩
      exact .inl (.group isLevel isNode found isGroup asks encoded rfl)
    · exact .inr stays
  · rcases buildable.fits.stored level isLevel queue isNode with
        ⟨stored, isStored, storedQueue, -⟩
    rcases StoreObject.isQueue_iff.mp storedQueue with ⟨portFits, numberFits, -⟩
    have isQueue := (sameEntity_queueObject_iff ⟨portFits, numberFits⟩ encoded).mp same
    rcases queueObject_writes buildable.serves member isQueue rfl encoded written with
      ⟨rfl, rfl⟩ | stays
    · rcases Option.bind_eq_some_iff.mp asks with ⟨name, -, isKnown⟩
      exact .inl (.queue isLevel isNode isQueue asks
        (encode_profile rfl (buildable.known name profile isKnown)) rfl)
    · exact .inr stays

theorem Asks.exists_setting (buildable : tree.Buildable names memory switchId port)
    (member : old ∈ memory.contents.objects)
    (asked : tree.Asks names memory.contents port old path value) :
    ∃ object ∈ tree.settings names memory.contents switchId port,
      object.SameEntity old ∧ object.get? path = some value := by
  cases asked with
  | @group level group id attr asked isLevel isNode found isGroup asks encoded located =>
      have few := fun children declared =>
        (buildable.fits.children level isLevel group isNode children declared).1
      have resolves : ∀ children, group.children = some children →
          ∃ ids, children.mapM (tree.childId? memory.contents port level.level) =
            some ids :=
        fun _ declared =>
          buildable.fits.exists_childIds buildable.serves.distinct isLevel isNode
          declared
      rcases exists_row buildable.known few resolves asks encoded with
        ⟨rows, isRows, first⟩
      have isSetting : groupObject switchId id rows ∈
          tree.settings names memory.contents switchId port :=
        ⟨level, isLevel, .inl ⟨group, isNode, id, found, rows, isRows, rfl⟩⟩
      refine ⟨_, isSetting, ?_, ?_⟩
      · exact (sameEntity_groupObject_iff buildable.serves.distinct isRows found
          member).mpr isGroup
      · have has := ObjectClass.has_of_encode encoded
        rw [located, get?_groupObject has (has_of_mem_rows isRows).1, first]
        rfl
  | @queue level queue profile isLevel isNode isQueue asks encoded located =>
      rcases StoreObject.isQueue_iff.mp isQueue with
        ⟨portFits, numberFits, code, typeEncoded, -⟩
      rcases Option.bind_eq_some_iff.mp asks with ⟨name, -, isKnown⟩
      rw [encode_profile rfl (buildable.known name profile isKnown)] at encoded
      cases encoded
      have isSetting : queueObject switchId code
        ⟨port, queue.queueType, queue.number⟩ profile ∈
          tree.settings names memory.contents switchId port :=
        ⟨level, isLevel, .inr ⟨queue, isNode, code, profile, typeEncoded, asks, rfl⟩⟩
      refine ⟨_, isSetting, ?_, ?_⟩
      · exact (sameEntity_queueObject_iff ⟨portFits, numberFits⟩ typeEncoded).mpr isQueue
      · rw [located, get?_queueObject (by decide)]
        rfl

/-- Settings of one object never contradict each other. -/
theorem settings_agree (buildable : tree.Buildable names memory switchId port)
    (isSetting : object ∈ tree.settings names memory.contents switchId port)
    (isOther : other ∈ tree.settings names memory.contents switchId port)
    (member : old ∈ memory.contents.objects) (same : object.SameEntity old)
    (otherSame : other.SameEntity old) : object.Agrees other := by
  intro path left right has otherHas
  rcases asks_of_setting buildable isSetting member same has with asked | ⟨was, unasked⟩
  · rcases asks_of_setting buildable isOther member otherSame otherHas with
      also | ⟨-, unasked⟩
    · exact asked.unique buildable.fits buildable.serves.distinct also
    · exact absurd asked (unasked left)
  · rcases asks_of_setting buildable isOther member otherSame otherHas with
      asked | ⟨also, -⟩
    · exact absurd asked (unasked right)
    · exact Option.some.inj (was.symm.trans also)

theorem get?_of_unasked (buildable : tree.Buildable names memory switchId port)
    (within : given ⊆ tree.settings names memory.contents switchId port)
    (member : old ∈ memory.contents.objects) (overwritten : OverwrittenBy given old new)
    (unasked : ∀ value, ¬tree.Asks names memory.contents port old path value) :
    new.get? path = old.get? path := by
  by_cases written : ∃ object ∈ given, object.SameEntity old ∧ object.get? path ≠ none
  · rcases written with ⟨object, isGiven, same, isWritten⟩
    rcases Option.ne_none_iff_exists'.mp isWritten with ⟨value, has⟩
    rcases asks_of_setting buildable (within isGiven) member same has with
      asked | ⟨was, -⟩
    · exact absurd asked (unasked value)
    · rw [was, overwritten.written object isGiven same path value has]
  · push Not at written
    exact overwritten.kept path written

theorem get?_of_asks (buildable : tree.Buildable names memory switchId port)
    (member : old ∈ memory.contents.objects)
    (overwritten : OverwrittenBy
      (tree.settings names memory.contents switchId port) old new)
    (asked : tree.Asks names memory.contents port old path value) :
    new.get? path = some value := by
  rcases asked.exists_setting buildable member with ⟨object, isSetting, same, has⟩
  exact overwritten.written object isSetting same path value has

end Asked

end SchedulerTree

end SwitchQos
