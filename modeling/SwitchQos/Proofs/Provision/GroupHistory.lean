import SwitchQos.Proofs.Provision.Origins
import SwitchQos.Proofs.Provision.ProfileCreation
import SwitchQos.Proofs.Provision.TreeCourses
import SwitchQos.Proofs.Store.GroupAddition

namespace SwitchQos

/-! Scheduler groups after any history of calls. The ids of groups are counted up, so
the order in which they have been returned is the order in which they ascend, and a
reader that sorts them finds each under the ordinal that its creation gave it, wherever
the store keeps it. What no call has returned is not stored, and what has been deleted
does not come back. -/

/-! ## Groups in a store -/

namespace StoreObject

variable {stored new old : StoreObject}
  {switchId port level id otherPort otherLevel other : Nat}

theorem IsGroup.unique (isGroup : stored.IsGroup port level id)
    (isOther : stored.IsGroup otherPort otherLevel other) :
    otherPort = port ∧ otherLevel = level ∧ other = id :=
  ⟨Option.some.inj (isOther.2.1.symm.trans isGroup.2.1),
    Option.some.inj (isOther.2.2.1.symm.trans isGroup.2.2.1),
    Option.some.inj (isOther.2.2.2.symm.trans isGroup.2.2.2)⟩

theorem IsGroup.id_lt (isGroup : stored.IsGroup port level id) : id < countOfBits 64 := by
  have found : ObjectClass.schedulerGroup.spec? "id" = some (.scalar .uint64) := rfl
  exact ((ObjectClass.number?_eq_some_iff found ⟨rfl, rfl⟩).mp isGroup.2.2.2).1

theorem IsGroup.entity?_eq_word_iff (isGroup : stored.IsGroup port level id)
    (fits : other < countOfBits 64) :
    stored.entity? = some ⟨.schedulerGroup, [Storage.uint64.word other]⟩ ↔
    id = other := by
  rw [isGroup.entity?_eq]
  constructor
  · intro same
    have words : Storage.uint64.word id = Storage.uint64.word other := by simpa using same
    exact @Storage.word_injective .uint64 rfl id other isGroup.id_lt fits words
  · rintro rfl
    rfl

theorem IsGroup.entity?_eq_iff (isGroup : new.IsGroup port level id)
    (isOther : old.IsGroup otherPort otherLevel other) :
    new.entity? = old.entity? ↔ id = other := by
  rw [isOther.entity?_eq, isGroup.entity?_eq_word_iff isOther.id_lt]

def IsGroupOf (switchId : Nat) (stored : StoreObject) : Prop :=
  stored.IsPlain ∧ ObjectClass.schedulerGroup.number? "switch-id" stored = some switchId ∧
    ∃ port level id, stored.IsGroup port level id

theorem isGroup_assemble {values : List (String × StoreValue)}
    (fits : Memory.GroupFits switchId port level id)
    (hasAll : ∀ row ∈ values, ObjectClass.schedulerGroup.Has row.1)
    (onSwitch : Directory.findRow "switch-id" values =
      some (Storage.uint32.word switchId))
    (onPort : Directory.findRow "port-id" values = some (Storage.uint32.word port))
    (onLevel : Directory.findRow "level" values = some (Storage.uint32.word level))
    (hasId : Directory.findRow "id" values = some (Storage.uint64.word id)) :
    (ObjectClass.schedulerGroup.assemble values).IsGroupOf switchId ∧
      (ObjectClass.schedulerGroup.assemble values).IsGroup port level id := by
  have plain : (ObjectClass.schedulerGroup.assemble values).IsPlain :=
    ObjectClass.keyData_assemble
  have shows {attr : String} {spec : AttrSpec} {number : Nat}
      (found : ObjectClass.schedulerGroup.spec? attr = some spec)
      (natural : spec.IsNatural) (room : number < spec.storage.modulus)
      (written : Directory.findRow attr values = some (spec.storage.word number)) :
      ObjectClass.schedulerGroup.number? attr
        (ObjectClass.schedulerGroup.assemble values) =
        some number := by
    rw [plain.number?_eq_some_iff found natural,
      ObjectClass.get?_assemble (.of_spec? found) hasAll]
    exact ⟨room, written⟩
  have isGroup : (ObjectClass.schedulerGroup.assemble values).IsGroup port level id :=
    ⟨ObjectClass.classPath_assemble, shows rfl ⟨rfl, rfl⟩ fits.port onPort,
      shows rfl ⟨rfl, rfl⟩ fits.level onLevel, shows rfl ⟨rfl, rfl⟩ fits.id hasId⟩
  exact ⟨⟨plain, shows rfl ⟨rfl, rfl⟩ fits.switch onSwitch, port, level, id,
    isGroup⟩, isGroup⟩

theorem StandsFor.symm (stands : new.StandsFor old) : old.StandsFor new :=
  ⟨stands.classPath.symm, fun objectClass isOf attr locates =>
    (stands.located objectClass (stands.classPath.trans isOf) attr locates).symm⟩

end StoreObject

/-! ## Stores that keep what stands -/

/-- The store has the groups that stand on the levels of ports, and nothing else.
Ids ascend in the order in which they are listed, and those that are still to
come are greater. -/
structure Contents.Tracks (switchId : Nat) (standing : Nat → Nat → List Nat)
    (contents : Contents) : Prop where
  groups : ∀ stored ∈ contents.objects, stored.IsGroupOf switchId
  distinct : Distinct contents.objects
  ascending : ∀ port level, (standing port level).Pairwise (· < ·)
  below : ∀ port level, ∀ id ∈ standing port level, id < contents.nextId
  stands : ∀ port level id, id ∈ standing port level ↔
    ∃ stored ∈ contents.objects, stored.IsGroup port level id

namespace Contents

open StoreObject

variable {contents : Contents} {switchId : Nat} {standing : Nat → Nat → List Nat}

theorem tracks_empty (switchId nextId : Nat) :
    Contents.Tracks switchId (fun _ _ => []) { nextId } where
  groups := by simp
  distinct := .nil
  ascending := by simp
  below := by simp
  stands := by simp

theorem Tracks.later (tracks : contents.Tracks switchId standing) {nextId : Nat}
    (later : contents.nextId ≤ nextId) :
    Contents.Tracks switchId standing { contents with nextId } where
  groups := tracks.groups
  distinct := tracks.distinct
  ascending := tracks.ascending
  below := fun port level id stands => (tracks.below port level id stands).trans_le later
  stands := tracks.stands

theorem Tracks.add (tracks : contents.Tracks switchId standing) {news : List StoreObject}
    {ids : List Nat} {port level nextId : Nat} (later : contents.nextId ≤ nextId)
    (isNew : ∀ new ∈ news, new.IsGroupOf switchId ∧ ∃ id ∈ ids, new.IsGroup port level id)
    (covered : ∀ id ∈ ids, ∃ new ∈ news, new.IsGroup port level id)
    (apart : Distinct news) (ascending : ids.Pairwise (· < ·))
    (next : ∀ id ∈ ids, contents.nextId ≤ id ∧ id < nextId) :
    Contents.Tracks switchId (fun onPort onLevel =>
        if port = onPort ∧ level = onLevel then standing onPort onLevel ++ ids
        else standing onPort onLevel)
      ⟨contents.objects ++ news, nextId⟩ where
  groups :=
    List.forall_mem_append.mpr ⟨tracks.groups, fun new member => (isNew new member).1⟩
  distinct := by
    refine List.pairwise_append.mpr ⟨tracks.distinct, apart, ?_⟩
    intro old isOld new member entity oldEntity newEntity
    rcases tracks.groups old isOld with ⟨-, -, oldPort, oldLevel, oldId, isGroup⟩
    rcases isNew new member with ⟨-, id, isId, isNewGroup⟩
    have same := (isGroup.entity?_eq_iff isNewGroup).mp (oldEntity.trans newEntity.symm)
    have before := tracks.below _ _ _ ((tracks.stands _ _ _).mpr ⟨old, isOld, isGroup⟩)
    have after := (next id isId).1
    omega
  ascending := by
    intro onPort onLevel
    split
    · refine List.pairwise_append.mpr ⟨tracks.ascending _ _, ascending, ?_⟩
      intro old stands id isId
      exact (tracks.below _ _ old stands).trans_le (next id isId).1
    · exact tracks.ascending _ _
  below := by
    intro onPort onLevel id stands
    split at stands
    · rcases List.mem_append.mp stands with old | new
      · exact (tracks.below _ _ id old).trans_le later
      · exact (next id new).2
    · exact (tracks.below _ _ id stands).trans_le later
  stands := by
    intro onPort onLevel id
    have added : (∃ new ∈ news, new.IsGroup onPort onLevel id) ↔
        (port = onPort ∧ level = onLevel) ∧ id ∈ ids := by
      constructor
      · rintro ⟨new, member, isGroup⟩
        rcases (isNew new member).2 with ⟨own, isOwn, isOwnGroup⟩
        rcases isGroup.unique isOwnGroup with ⟨rfl, rfl, rfl⟩
        exact ⟨⟨rfl, rfl⟩, isOwn⟩
      · rintro ⟨⟨rfl, rfl⟩, isId⟩
        exact covered id isId
    simp only [List.mem_append, or_and_right, exists_or, added, ← tracks.stands]
    split
    · rename_i here
      rw [List.mem_append, and_iff_right here]
    · rename_i elsewhere
      simp [elsewhere]

theorem Tracks.map (tracks : contents.Tracks switchId standing)
    {change : StoreObject → StoreObject}
    (keeps : ∀ stored ∈ contents.objects, (change stored).IsGroupOf switchId ∧
      ∀ port level id, (change stored).IsGroup port level id ↔
      stored.IsGroup port level id) :
    Contents.Tracks switchId standing ⟨contents.objects.map change, contents.nextId⟩ where
  groups := List.forall_mem_map.mpr fun stored member => (keeps stored member).1
  distinct := by
    refine tracks.distinct.map fun stored member => ?_
    rcases tracks.groups stored member with ⟨-, -, port, level, id, isGroup⟩
    exact ((((keeps stored member).2 port level id).mpr isGroup).entity?_eq_iff
      isGroup).mpr rfl
  ascending := tracks.ascending
  below := tracks.below
  stands := by
    intro port level id
    rw [tracks.stands]
    simp only [List.mem_map, exists_exists_and_eq_and]
    exact exists_congr fun stored => and_congr_right fun member =>
      ((keeps stored member).2 port level id).symm

theorem Tracks.filter (tracks : contents.Tracks switchId standing)
    {keep : StoreObject → Bool} {group : Nat}
    (kept : ∀ stored ∈ contents.objects, ∀ port level id, stored.IsGroup port level id →
      (keep stored = true ↔ id ≠ group)) :
    Contents.Tracks switchId
      (fun port level => (standing port level).filter fun id => id ≠ group)
      ⟨contents.objects.filter keep, contents.nextId⟩ where
  groups := fun stored member => tracks.groups stored (List.mem_of_mem_filter member)
  distinct := tracks.distinct.filter _
  ascending := fun port level => (tracks.ascending port level).filter _
  below :=
    fun port level id stands => tracks.below port level id (List.mem_of_mem_filter stands)
  stands := by
    intro port level id
    simp only [List.mem_filter, decide_eq_true_eq, tracks.stands, and_assoc]
    constructor
    · rintro ⟨⟨stored, member, isGroup⟩, different⟩
      exact ⟨stored, member, (kept stored member _ _ _ isGroup).mpr different, isGroup⟩
    · rintro ⟨stored, member, isKept, isGroup⟩
      exact ⟨⟨stored, member, isGroup⟩, (kept stored member _ _ _ isGroup).mp isKept⟩

end Contents

/-! ## Histories -/

inductive GroupCall where
  | add (port level count : Nat)
  | create (port level : Nat)
  | delete (group : Nat)
  | bindProfile (group profile : Nat)
  | setChildren (group : Nat) (children : List Nat)
  /-- Make the store refuse such operations from now on. -/
  | refuse (rule : FailureRule)

structure GroupEvent where
  call : GroupCall
  ids : Option (List Nat)

def GroupEvent.standing (port level : Nat) (before : List Nat)
    (event : GroupEvent) : List Nat :=
  match event.call, event.ids with
  | .add onPort onLevel _, some ids | .create onPort onLevel, some ids =>
      if onPort = port ∧ onLevel = level then before ++ ids else before
  | .delete group, some _ => before.filter fun id => id ≠ group
  | _, _ => before

/-- The ids that have been returned for a level of a port and not been deleted since, in
the order in which they were returned. -/
def standingGroups (port level : Nat) (events : List GroupEvent) : List Nat :=
  events.foldl (GroupEvent.standing port level) []

namespace Scheduler

def attempt {Result : Type} (task : Task Result) (memory : Memory) :
    Option Result × Memory :=
  let (result, after) := task.run.run Memory.responder memory
  (result.bind Except.toOption, after)

def perform (scheduler : Scheduler) (memory : Memory) : GroupCall →
    Option (List Nat) × Memory
  | .add port level count =>
      let (result, after) := (Memory.addSchedulerGroups port level count).outcome memory
      (result.toOption, after)
  | .create port level => attempt (return [← scheduler.createGroup port level]) memory
  | .delete group => attempt (do scheduler.deleteGroup group; return []) memory
  | .bindProfile group profile =>
      attempt (do scheduler.bindGroupProfile group profile; return []) memory
  | .setChildren group children =>
      attempt (do scheduler.setChildren group children; return []) memory
  | .refuse rule => (some [], memory.refuse rule)

def history (scheduler : Scheduler) : List GroupCall → Memory → List GroupEvent × Memory
  | [], memory => ([], memory)
  | call :: rest, memory =>
      let (ids, memory) := scheduler.perform memory call
      let (events, memory) := history scheduler rest memory
      (⟨call, ids⟩ :: events, memory)

section Attempts

variable {scheduler : Scheduler} {memory after : Memory} {Result : Type}
  {task : Task Result}

theorem attempt_of_ok {result : Result} (next : Result → List Nat)
    (ends : task.run.Ends Memory.responder memory (.ok result) after) :
    attempt (do let result ← task; return next result) memory =
      (some (next result), after) := by
  have whole : (do let result ← task; return next result : Task (List Nat)).run.Ends
      Memory.responder memory (.ok (next result)) after :=
      Task.ends_bind ends (Task.ends_pure _)
  rw [attempt, whole]
  rfl

theorem attempt_of_error {error : ProvisionError} (next : Result → List Nat)
    (ends : task.run.Ends Memory.responder memory (.error error) after) :
    attempt (do let result ← task; return next result) memory = (none, after) := by
  have whole : (do let result ← task; return next result : Task (List Nat)).run.Ends
      Memory.responder memory (.error error) after :=
    Task.ends_bind_iff.mpr (.inr ⟨error, ends, rfl⟩)
  rw [attempt, whole]
  rfl

theorem attempt_submit_cases {name : String} {verb : Verb}
    {data : Except CodecError Authored} {objectClass : ObjectClass}
    {ids : Option (List Nat)}
    (isOf : ∀ authored, data = .ok authored → authored.data.classPath = objectClass.path)
    (performed : attempt (do
      (do let _ ← submit name verb data : Task Unit)
      return []) memory = (ids, after)) :
    (ids = none ∧ after = memory) ∨
      ∃ authored result contents, data = .ok authored ∧
        memory.contents.carryOut verb objectClass authored.data = .ok (result, contents) ∧
        ids = some [] ∧
        after = { memory with
          contents, log := memory.log ++ [⟨verb, authored.data⟩] } := by
  rcases submit_cases isOf with
    ⟨error, refused⟩ | ⟨authored, result, contents, same, carried, accepted⟩
  · rw [attempt_of_error _
      (Task.ends_bind_iff.mpr (.inr ⟨error, refused, rfl⟩))] at performed
    cases performed
    exact .inl ⟨rfl, rfl⟩
  · rw [attempt_of_ok _ (Task.ends_bind accepted (Task.ends_pure ()))] at performed
    cases performed
    exact .inr ⟨authored, result, contents, same, carried, rfl, rfl⟩

end Attempts

end Scheduler

/-! ## Calls -/

structure Memory.Tracks (switchId : Nat) (standing : Nat → Nat → List Nat)
    (memory : Memory) :
    Prop where
  onSwitch : memory.switchId = switchId
  available : memory.unavailable = 0
  contents : memory.contents.Tracks switchId standing

namespace Scheduler

open StoreObject

variable {scheduler : Scheduler} {memory after : Memory} {standing : Nat → Nat → List Nat}
  {ids : Option (List Nat)}

/-- All groups that stand are found, each level for itself and in order. -/
theorem readGroups_of_tracks {port : Port}
    (tracks : memory.Tracks scheduler.switchId standing)
    (switchFits : scheduler.switchId < countOfBits 32)
    (portFits : port.ifindex < countOfBits 32) :
    ∃ index, (scheduler.readGroups port).run.Ends Memory.responder memory
      (.ok index) memory ∧
      ∀ level, index.level level = standing port.ifindex level := by
  have groups := tracks.contents.groups
  have readable : memory.contents.GroupsReadable scheduler.switchId port.ifindex := by
    intro stored member isOf onPort
    rcases groups stored member with ⟨-, onSwitch, _, _, _, isGroup⟩
    exact ⟨onSwitch, Option.isSome_of_eq_some isGroup.2.2.1,
      Option.isSome_of_eq_some isGroup.2.2.2⟩
  rcases readGroups_ends switchFits portFits tracks.available
    (fun stored member => (groups stored member).1) tracks.contents.distinct readable with
    ⟨index, ends, levels⟩
  refine ⟨index, ends, fun level => ?_⟩
  rw [levels]
  refine List.Pairwise.eq_of_mem_iff (Contents.pairwise_groupIds tracks.contents.distinct)
    (tracks.contents.ascending _ _) fun id => ?_
  rw [Contents.mem_groupIds, tracks.contents.stands]

/-! ### Adding and creating -/

theorem isGroup_addedGroup {switchId port level id : Nat}
    (fits : Memory.GroupFits switchId port level id) :
    (Memory.addedGroup switchId port level id).IsGroupOf switchId ∧
      (Memory.addedGroup switchId port level id).IsGroup port level id :=
  isGroup_assemble fits (by simp; decide) rfl rfl rfl rfl

theorem tracks_add (tracks : memory.Tracks scheduler.switchId standing)
    {port level count : Nat}
    (performed : scheduler.perform memory (.add port level count) = (ids, after)) :
    after.Tracks scheduler.switchId fun onPort onLevel =>
      GroupEvent.standing onPort onLevel
      (standing onPort onLevel) ⟨.add port level count, ids⟩ := by
  have started := Nat.le_add_right memory.contents.nextId count
  rw [perform] at performed
  rcases Memory.addSchedulerGroups_cases memory port level count with
    ⟨cause, failed⟩ | ⟨added, fit⟩
  · rw [failed] at performed
    cases performed
    exact ⟨tracks.onSwitch, tracks.available, tracks.contents.later started⟩
  · rw [added] at performed
    cases performed
    rw [tracks.onSwitch] at fit ⊢
    have isNew (id : Nat) (member : id ∈ List.range' memory.contents.nextId count) :=
      isGroup_addedGroup (fit id member)
    refine ⟨tracks.onSwitch, tracks.available, tracks.contents.add started ?_ ?_ ?_ ?_ ?_⟩
    · intro new member
      rcases List.mem_map.mp member with ⟨id, isId, rfl⟩
      have isAdded := isNew id (List.mem_reverse.mp isId)
      exact ⟨isAdded.1, id, List.mem_reverse.mp isId, isAdded.2⟩
    · intro id isId
      exact ⟨_, List.mem_map_of_mem (List.mem_reverse.mpr isId), (isNew id isId).2⟩
    · refine List.pairwise_map.mpr (List.Pairwise.imp_of_mem ?_
        (List.nodup_reverse.mpr (List.nodup_range' 1)))
      intro left right isLeft isRight different entity leftEntity rightEntity
      have same := (isNew left (List.mem_reverse.mp isLeft)).2.entity?_eq_iff
        (isNew right (List.mem_reverse.mp isRight)).2
      exact different (same.mp (leftEntity.trans rightEntity.symm))
    · exact List.pairwise_lt_range' 1
    · exact fun id isId => List.mem_range'_1.mp isId

theorem readId_group {group : StoreObject} {port level id : Nat} (plain : group.IsPlain)
    (isGroup : group.IsGroup port level id) (name : String) :
    readId name (group.answer .schedulerGroup) = .ok id := by
  have found : ObjectClass.schedulerGroup.spec? "id" = some (.scalar .uint64) := rfl
  have shown := (Record.id_answer_iff found ⟨rfl, rfl⟩).mpr
    ((plain.number?_eq_some_iff found ⟨rfl, rfl⟩).mp isGroup.2.2.2)
  simp only [readId, Record.wrap_answer isGroup.1, shown, Except.mapError,
    Results.ok_bind]

theorem createGroup_cases (tracks : memory.Tracks scheduler.switchId standing)
    (port level : Nat) :
    (∃ error, (scheduler.createGroup port level).run.Ends Memory.responder
      memory (.error error)
        memory) ∨
      ∃ (group : StoreObject) (log : List Operation), group.IsGroupOf scheduler.switchId ∧
        group.IsGroup port level memory.contents.nextId ∧
        (scheduler.createGroup port level).run.Ends Memory.responder memory
          (.ok memory.contents.nextId) { memory with log, contents :=
            ⟨memory.contents.objects ++ [group], memory.contents.nextId + 1⟩ } := by
  have levelSpec : ObjectClass.schedulerGroup.spec? "level" =
    some (.scalar .uint32) := rfl
  let data : Except CodecError Authored := do
    let data ← portSchedulerGroups scheduler.switchId port
    data.set "level" (.uint level)
  let rows :=
    [("level", Storage.uint32.word level), ("port-id", Storage.uint32.word port),
    ("switch-id", Storage.uint32.word scheduler.switchId)]
  have hasAll : ∀ row ∈ rows, ObjectClass.schedulerGroup.Has row.1 := by
    simp [rows]
    decide
  have built (authored : Authored) (same : data = .ok authored) :
      authored = .assembled .schedulerGroup rows ∧ scheduler.switchId < countOfBits 32 ∧
        port < countOfBits 32 ∧ level < countOfBits 32 := by
    rcases Results.bind_eq_ok_iff.mp same with ⟨_, started, written⟩
    rcases portSchedulerGroups_eq_ok_iff.mp started with ⟨switchFits, portFits, rfl⟩
    rcases (Authored.set_uint_eq_ok_iff levelSpec ⟨rfl, rfl⟩).mp written with
      ⟨levelFits, rfl⟩
    exact ⟨rfl, switchFits, portFits, levelFits⟩
  have isOf (authored : Authored) (same : data = .ok authored) :
      authored.data.classPath = ObjectClass.schedulerGroup.path :=
    (built authored same).1 ▸ ObjectClass.classPath_assemble
  rcases createObject_cases isOf with
    ⟨error, refused⟩ | ⟨authored, created, contents, same, carried, answered⟩
  · exact .inl ⟨error, refused⟩
  · rcases built authored same with ⟨rfl, switchFits, portFits, levelFits⟩
    have unnumbered : (ObjectClass.schedulerGroup.assemble rows).get?
        (ObjectClass.schedulerGroup.pathOf "id") = none :=
      ObjectClass.get?_assemble (by decide) hasAll
    rcases (Contents.create_unnumbered_eq_ok_iff rfl unnumbered
      (fun stored member => (tracks.contents.groups stored member).1)
      ObjectClass.keyData_assemble).mp carried with ⟨⟨room, -⟩, rfl, rfl⟩
    have hasId : ObjectClass.schedulerGroup.Has "id" := by decide
    have numbered := @isGroup_assemble _ _ _ _
      (("id", Storage.uint64.word memory.contents.nextId) :: rows)
      ⟨switchFits, portFits, levelFits, room⟩ (List.forall_mem_cons.mpr ⟨hasId, hasAll⟩)
      rfl rfl rfl rfl
    refine .inr ⟨_, memory.log ++
      [⟨.create, (Authored.assembled .schedulerGroup rows).data⟩],
      numbered.1, numbered.2, ?_⟩
    rw [← readId_group numbered.1.1 numbered.2]
    exact answered

theorem tracks_create (tracks : memory.Tracks scheduler.switchId standing)
    {port level : Nat}
    (performed : scheduler.perform memory (.create port level) = (ids, after)) :
    after.Tracks scheduler.switchId fun onPort onLevel =>
      GroupEvent.standing onPort onLevel (standing onPort onLevel)
        ⟨.create port level, ids⟩ := by
  rw [perform] at performed
  rcases createGroup_cases tracks port level with
    ⟨error, refused⟩ | ⟨group, log, onSwitch, isGroup, created⟩
  · rw [attempt_of_error _ refused] at performed
    cases performed
    exact tracks
  · rw [attempt_of_ok _ created] at performed
    cases performed
    refine ⟨tracks.onSwitch, tracks.available, tracks.contents.add (Nat.le_succ _) ?_ ?_
      (List.pairwise_singleton _ _) (List.pairwise_singleton _ _) ?_⟩
    · exact fun new member => List.mem_singleton.mp member ▸
        ⟨onSwitch, _, List.mem_singleton_self _, isGroup⟩
    · exact fun id isId =>
        ⟨group, List.mem_singleton_self _, List.mem_singleton.mp isId ▸ isGroup⟩
    · exact fun id isId =>
        List.mem_singleton.mp isId ▸ ⟨Nat.le_refl _, Nat.lt_succ_self _⟩

/-! ### Setting and deleting -/

def groupPlace : List String := ["id", "port-id", "level", "switch-id"]

def SparesPlace (rows : List (String × StoreValue)) : Prop :=
  ∀ row ∈ rows, ObjectClass.schedulerGroup.Has row.1 ∧ row.1 ∉ groupPlace

theorem isGroup_mergeFrom {old : StoreObject} {switchId group : Nat}
    {rows : List (String × StoreValue)} (isGroup : old.IsGroupOf switchId)
    (spares : SparesPlace rows)
    (hit : Contents.addressed .schedulerGroup
      (groupObject switchId group rows) old = true) :
    (old.mergeFrom (groupObject switchId group rows)).IsGroupOf switchId ∧
      ∀ port level id,
      (old.mergeFrom (groupObject switchId group rows)).IsGroup port level id ↔
        old.IsGroup port level id := by
  have switchSpec : ObjectClass.schedulerGroup.spec? "switch-id" =
    some (.scalar .uint32) := rfl
  have plain : (groupObject switchId group rows).IsPlain := ObjectClass.keyData_assemble
  have shown {attr : String} (has : ObjectClass.schedulerGroup.Has attr)
      (ofPlace : attr ∈ groupPlace) :
      (groupObject switchId group rows).get? (ObjectClass.schedulerGroup.pathOf attr) =
        Directory.findRow attr
          [("id", Storage.uint64.word group),
            ("switch-id", Storage.uint32.word switchId)] := by
    have notSet : Directory.findRow attr rows = none := by
      refine Directory.findRow_eq_none_iff.mpr fun member => ?_
      rcases List.mem_map.mp member with ⟨row, isRow, rfl⟩
      exact (spares row isRow).2 ofPlace
    rw [get?_groupObject has fun row isRow =>
      (spares row isRow).1, notSet, Option.none_or]
  rcases isGroup with ⟨oldPlain, onSwitch, port, level, id, isGroup⟩
  rcases Bool.and_eq_true_iff.mp hit with ⟨isOf, same⟩
  have stands : (old.mergeFrom (groupObject switchId group rows)).StandsFor old := by
    refine standsFor_mergeFrom oldPlain (of_decide_eq_true isOf) same
      fun attr locates noKey => ?_
    simp only [ObjectClass.locators, List.mem_cons, List.not_mem_nil, or_false] at locates
    rw [plain.lookup]
    rcases locates with rfl | rfl | rfl
    · exact absurd (by decide) noKey
    · exact shown (by decide) (by decide)
    · exact shown (by decide) (by decide)
  have sameGroup (port level id : Nat) :
      (old.mergeFrom (groupObject switchId group rows)).IsGroup port level id ↔
        old.IsGroup port level id :=
    ⟨stands.isGroup (oldPlain.mergeFrom _) oldPlain,
      stands.symm.isGroup oldPlain (oldPlain.mergeFrom _)⟩
  refine ⟨⟨oldPlain.mergeFrom _, ?_, port, level, id, (sameGroup _ _ _).mpr isGroup⟩,
    sameGroup⟩
  rw [(oldPlain.mergeFrom _).number?_eq_some_iff switchSpec ⟨rfl, rfl⟩,
    plain.get?_mergeFrom, shown (by decide) (by decide)]
  exact ⟨((oldPlain.number?_eq_some_iff switchSpec ⟨rfl, rfl⟩).mp onSwitch).1, rfl⟩

theorem tracks_set (tracks : memory.Tracks scheduler.switchId standing) {name : String}
    {data : Except CodecError Authored} (group : Nat) {rows : List (String × StoreValue)}
    (spares : SparesPlace rows)
    (isSet : ∀ authored, data = .ok authored →
      authored.data = groupObject scheduler.switchId group rows)
    (performed : attempt (do
      (do let _ ← submit name .set data : Task Unit)
      return []) memory = (ids, after)) :
    after.Tracks scheduler.switchId standing := by
  have isOf (authored : Authored) (same : data = .ok authored) :
      authored.data.classPath = ObjectClass.schedulerGroup.path :=
    isSet authored same ▸ ObjectClass.classPath_assemble
  rcases attempt_submit_cases isOf performed with
    ⟨-, rfl⟩ | ⟨authored, merged, contents, same, carried, -, rfl⟩
  · exact tracks
  · rcases (Contents.set_eq_ok_iff tracks.contents.distinct).mp carried with
      ⟨-, -, -, -, rfl⟩
    refine ⟨tracks.onSwitch, tracks.available,
      tracks.contents.map fun stored member => ?_⟩
    have isGroup := tracks.contents.groups stored member
    rw [isSet authored same, Contents.overwritten]
    split
    · rename_i hit
      exact isGroup_mergeFrom isGroup spares hit
    · exact ⟨isGroup, fun _ _ _ => Iff.rfl⟩

theorem tracks_bindProfile (tracks : memory.Tracks scheduler.switchId standing)
    {group profile : Nat}
    (performed : scheduler.perform memory (.bindProfile group profile) = (ids, after)) :
    after.Tracks scheduler.switchId standing := by
  have found : ObjectClass.schedulerGroup.spec? "scheduler-profile-id" =
    some (.scalar .uint64) := rfl
  have spares : SparesPlace [("scheduler-profile-id", Storage.uint64.word profile)] := by
    simp [SparesPlace]
    decide
  refine tracks_set tracks group spares (fun authored built => ?_) performed
  rcases Results.bind_eq_ok_iff.mp built with ⟨data, started, written⟩
  rcases schedulerGroup_eq_ok_iff.mp started with ⟨-, -, rfl⟩
  rcases (Authored.set_uint_eq_ok_iff found ⟨rfl, rfl⟩).mp written with ⟨-, rfl⟩
  rfl

theorem tracks_setChildren (tracks : memory.Tracks scheduler.switchId standing)
    {group : Nat} {children : List Nat}
    (performed : scheduler.perform memory (.setChildren group children) = (ids, after)) :
    after.Tracks scheduler.switchId standing := by
  have spares : SparesPlace [("child_count", Storage.uint32.word children.length),
      ("child-list", .list (children.map fun id : Nat => Storage.uint64.write id))] := by
    simp [SparesPlace]
    decide
  rw [perform, setChildren] at performed
  split at performed
  · cases performed
    exact tracks
  · refine tracks_set tracks group spares (fun authored built => ?_) performed
    rcases groupChildren_of_build built with ⟨_, same, isList⟩ | ⟨-, _, impossible⟩
    · cases same
      exact isList
    · cases impossible

theorem tracks_delete (tracks : memory.Tracks scheduler.switchId standing) {group : Nat}
    (performed : scheduler.perform memory (.delete group) = (ids, after)) :
    after.Tracks scheduler.switchId fun port level =>
      GroupEvent.standing port level (standing port level) ⟨.delete group, ids⟩ := by
  have built (authored : Authored)
      (same : schedulerGroup scheduler.switchId group = .ok authored) :
      group < countOfBits 64 ∧
      authored.data = groupObject scheduler.switchId group [] := by
    rcases schedulerGroup_eq_ok_iff.mp same with ⟨-, groupFits, rfl⟩
    exact ⟨groupFits, rfl⟩
  have isOf (authored : Authored)
      (same : schedulerGroup scheduler.switchId group = .ok authored) :
      authored.data.classPath = ObjectClass.schedulerGroup.path :=
    (built authored same).2 ▸ ObjectClass.classPath_assemble
  rcases attempt_submit_cases isOf performed with
    ⟨rfl, rfl⟩ | ⟨authored, removed, contents, same, carried, rfl, rfl⟩
  · exact tracks
  · rcases built authored same with ⟨groupFits, isGroup⟩
    rw [isGroup] at carried
    rcases (Contents.delete_eq_ok_iff tracks.contents.distinct).mp
      carried with ⟨-, -, rfl⟩
    refine ⟨tracks.onSwitch, tracks.available, tracks.contents.filter ?_⟩
    intro stored member port level id isOther
    have identified :=
      (entity?_eq_some_iff.mp (@entity?_groupObject scheduler.switchId group []
      (List.forall_mem_nil _) rfl)).2
    have hit : Contents.addressed .schedulerGroup
      (groupObject scheduler.switchId group [])
        stored = true ↔ id = group := by
      rw [Contents.addressed_of_identity? identified,
        isOther.entity?_eq_word_iff groupFits]
    simp [Contents.goesWith, Bool.eq_false_iff, hit]

/-- One call leaves a store that keeps what stands after it. -/
theorem tracks_perform (tracks : memory.Tracks scheduler.switchId standing)
    {call : GroupCall} (performed : scheduler.perform memory call = (ids, after)) :
    after.Tracks scheduler.switchId fun port level =>
      GroupEvent.standing port level (standing port level) ⟨call, ids⟩ := by
  cases call with
  | add port level count => exact tracks_add tracks performed
  | create port level => exact tracks_create tracks performed
  | delete group => exact tracks_delete tracks performed
  | bindProfile group profile => exact tracks_bindProfile tracks performed
  | setChildren group children => exact tracks_setChildren tracks performed
  | refuse rule =>
      cases performed
      exact ⟨tracks.onSwitch, tracks.available, tracks.contents⟩

theorem tracks_history (tracks : memory.Tracks scheduler.switchId standing)
    (calls : List GroupCall) :
    (scheduler.history calls memory).2.Tracks scheduler.switchId fun port level =>
      (scheduler.history calls memory).1.foldl (GroupEvent.standing port level)
        (standing port level) := by
  induction calls generalizing memory standing with
  | nil => exact tracks
  | cons call rest induction => exact induction (tracks_perform tracks rfl)

/-- Whatever has been called on a new store, and whether or not it was refused: on each
level of a port are found the groups that have been returned for it and not been deleted
since, in the order in which they were returned. -/
theorem readGroups_of_history {calls : List GroupCall}
    {events : List GroupEvent} {port : Port}
    (switchFits : scheduler.switchId < countOfBits 32)
    (portFits : port.ifindex < countOfBits 32)
    (called : scheduler.history calls (.new scheduler.switchId) = (events, memory)) :
    ∃ index, (scheduler.readGroups port).run.Ends Memory.responder memory
      (.ok index) memory ∧
      ∀ level, index.level level = standingGroups port.ifindex level events := by
  have start : (Memory.new scheduler.switchId).Tracks scheduler.switchId fun _ _ => [] :=
    ⟨rfl, rfl, Contents.tracks_empty _ _⟩
  have tracks := tracks_history start calls
  rw [called] at tracks
  exact readGroups_of_tracks tracks switchFits portFits

def regrouping : List GroupCall :=
  [.add 1 2 3, .create 1 2, .refuse ⟨.create, ObjectClass.schedulerGroup.path, none⟩,
    .create 1 2, .bindProfile 0x1000 7, .delete 0x1001, .setChildren 0x1003 [5, 6]]

/-- The store still lists the added groups from the last to the first. -/
theorem readGroups_of_regrouping :
    let made := (⟨7⟩ : Scheduler).history regrouping (.new 7)
    (made.1.map (·.ids) = [some [0x1000, 0x1001, 0x1002], some [0x1003], some [], none,
          some [], some [], some []] ∧
        made.2.contents.objects.map (ObjectClass.schedulerGroup.number? "id") =
          [some 0x1002, some 0x1000, some 0x1003] ∧
        standingGroups 1 2 made.1 = [0x1000, 0x1002, 0x1003]) ∧
      ∃ index, ((⟨7⟩ : Scheduler).readGroups
          ⟨"eth1", 1, InterfaceClass.frontPanel.typeName⟩).run.Ends
          Memory.responder made.2
            (.ok index) made.2 ∧
        ∀ level, index.level level = standingGroups 1 level made.1 :=
  ⟨by decide +kernel, @readGroups_of_history ⟨7⟩ _ regrouping _
    ⟨"eth1", 1, InterfaceClass.frontPanel.typeName⟩ (by decide) (by decide)
    (Prod.eta _).symm⟩

end Scheduler

end SwitchQos
