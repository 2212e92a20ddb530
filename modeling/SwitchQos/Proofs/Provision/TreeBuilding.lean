import SwitchQos.Proofs.Provision.TreeSettings
import SwitchQos.Provision.TreeBinding
import SwitchQos.Store.Topology

namespace SwitchQos

/-! Building a scheduler tree on a port. The groups are discovered once and the queues
are looked up on the way, while groups and queues are being changed. What has been set
so far never touches what they are found by, so each binding finds the store as if it
was the first, and none is lost. -/

/-! ## On the way -/

namespace SchedulerTree

open StoreObject

/-- Some of the settings of the tree have been made, and nothing else. -/
structure Building (tree : SchedulerTree) (names : Names) (switchId port : Nat)
    (start : Memory) (given : Set StoreObject) (memory : Memory) : Prop where
  within : given ⊆ tree.settings names start.contents switchId port
  overwritten : start.Overwritten given memory

variable {tree : SchedulerTree} {names : Names} {switchId port : Nat}
  {start memory : Memory} {given : Set StoreObject} {object : StoreObject}

theorem exists_sameEntity (buildable : tree.Buildable names start switchId port)
    (isSetting : object ∈ tree.settings names start.contents switchId port) :
    ∃ old ∈ start.contents.objects, object.SameEntity old := by
  obtain ⟨level, isLevel, ⟨group, isNode, id, found, rows, isRows, rfl⟩ |
    ⟨queue, isNode, code, profile, encoded, -, rfl⟩⟩ := isSetting
  · rcases Contents.mem_groupIds.mp (List.mem_of_getElem? found) with
      ⟨old, member, isGroup⟩
    exact ⟨old, member,
      (sameEntity_groupObject_iff buildable.serves.distinct isRows found
        member).mpr isGroup⟩
  · rcases buildable.fits.stored level isLevel queue isNode with ⟨old, member, isQueue, -⟩
    rcases isQueue_iff.mp isQueue with ⟨portFits, numberFits, -⟩
    exact ⟨old, member,
      (sameEntity_queueObject_iff ⟨portFits, numberFits⟩ encoded).mpr isQueue⟩

theorem isPlain_of_setting {contents : Contents}
    (isSetting : object ∈ tree.settings names contents switchId port) :
    object.IsPlain := by
  rcases isSetting with
      ⟨level, -, ⟨group, -, id, -, rows, -, rfl⟩ | ⟨queue, -, code, profile, -, -, rfl⟩⟩
  · exact ObjectClass.keyData_assemble
  · exact ObjectClass.keyData_assemble

theorem Building.set (buildable : tree.Buildable names start switchId port)
    (building : tree.Building names switchId port start given memory)
    (isSetting : object ∈ tree.settings names start.contents switchId port) :
    ∃ answers after, memory.transact [⟨.set, object⟩] = (.ok answers, after) ∧
      tree.Building names switchId port start (given ∪ {object}) after := by
  rcases exists_sameEntity buildable isSetting with ⟨old, member, same⟩
  have agree : ∀ old ∈ start.contents.objects, object.SameEntity old → ∀ other ∈ given,
      other.SameEntity old → other.Agrees object :=
    fun _ member same _ isGiven otherSame =>
      settings_agree buildable (building.within isGiven) isSetting member otherSame same
  rcases building.overwritten.set
    buildable.serves.unruled buildable.serves.distinct
    (isPlain_of_setting isSetting) member same
    agree with ⟨answers, after, accepted, overwritten⟩
  rw [Set.union_singleton]
  exact ⟨answers, after, accepted,
    Set.insert_subset isSetting building.within, overwritten⟩

theorem Building.queueId_ends {scheduler : Scheduler} {key : QueueKey}
    {stored : StoreObject} {id : Nat}
    (buildable : tree.Buildable names start scheduler.switchId port)
    (building : tree.Building names scheduler.switchId port start given memory)
    (member : stored ∈ start.contents.objects) (isQueue : stored.IsQueue key)
    (onPort : key.port = port) (hasId : ObjectClass.queue.number? "id" stored = some id) :
    (scheduler.queueId key).run.Ends Memory.responder memory (.ok (some id)) memory := by
  have available := building.overwritten.unavailable.trans buildable.serves.available
  have distinct := Contents.distinct_of_related building.overwritten.objects
    buildable.serves.distinct
  have plain : ∀ new ∈ memory.contents.objects, new.IsPlain := by
    intro new isNew
    rcases Results.exists_left building.overwritten.objects isNew with
      ⟨old, -, overwritten⟩
    exact overwritten.plain
  rcases Results.exists_right building.overwritten.objects member with
    ⟨new, isNew, overwritten⟩
  have kept : ∀ attr, ObjectClass.queue.Has attr → attr ≠ "scheduler-profile-id" →
      ObjectClass.queue.number? attr new = ObjectClass.queue.number? attr stored := by
    intro attr has other
    refine ObjectClass.number?_congr ?_
    rw [overwritten.plain.lookup, (buildable.serves.plain stored member).lookup]
    exact get?_of_unasked buildable building.within member overwritten fun value =>
      not_asks_queue attr isQueue.1 has other
  have onSwitch := buildable.serves.queues stored member isQueue.1 (onPort ▸ isQueue.2.1)
  exact Scheduler.queueId_ends available plain distinct isNew
    (isQueue.congr overwritten.entity)
    ((kept "switch-id" (by decide) (by decide)).trans onSwitch)
    ((kept "id" (by decide) (by decide)).trans hasId)

end SchedulerTree

/-! ## Single bindings -/

namespace Scheduler

variable {scheduler : Scheduler} {memory after : Memory} {answers : List StoreObject}

theorem submit_ends {object : String} {verb : Verb} {data : Except CodecError Authored}
    {authored : Authored} (built : data = .ok authored)
    (accepted : memory.transact [⟨verb, authored.data⟩] = (.ok answers, after)) :
    (submit object verb data).run.Ends Memory.responder memory (.ok answers) after :=
  Task.ends_bind (Task.ends_ofCodec built) (Task.ends_transact accepted)

theorem bindGroupProfile_ends {group profile : Nat}
    (switchFits : scheduler.switchId < countOfBits 32)
    (groupFits : group < countOfBits 64) (profileFits : profile < countOfBits 64)
    (accepted : memory.transact [⟨.set, groupObject scheduler.switchId group
      [("scheduler-profile-id", Storage.uint64.word profile)]⟩] = (.ok answers, after)) :
    (scheduler.bindGroupProfile group profile).run.Ends Memory.responder memory
      (.ok ()) after := by
  have found : ObjectClass.schedulerGroup.spec? "scheduler-profile-id" =
      some (.scalar .uint64) :=
    rfl
  have built : (schedulerGroup scheduler.switchId group >>= fun data =>
      data.set "scheduler-profile-id" (.uint profile)) =
      .ok ⟨.schedulerGroup, groupObject scheduler.switchId group
        [("scheduler-profile-id", Storage.uint64.word profile)]⟩ := by
    rw [schedulerGroup_eq_ok_iff.mpr ⟨switchFits, groupFits, rfl⟩, Results.ok_bind]
    exact (Authored.set_uint_eq_ok_iff found ⟨rfl, rfl⟩).mpr ⟨profileFits, rfl⟩
  exact Task.ends_bind (submit_ends built accepted) (Task.ends_pure ())

theorem bindQueueProfile_ends {key : QueueKey} {code profile : Nat}
    (switchFits : scheduler.switchId < countOfBits 32)
    (portFits : key.port < countOfBits 32) (numberFits : key.number < countOfBits 32)
    (encoded : SymbolFamily.queueType.encode key.queueType = .ok code)
    (profileFits : profile < countOfBits 64)
    (accepted : memory.transact
      [⟨.set, queueObject scheduler.switchId code key profile⟩] =
      (.ok answers, after)) :
    (scheduler.bindQueueProfile key profile).run.Ends Memory.responder memory
      (.ok ()) after := by
  have found : ObjectClass.queue.spec? "scheduler-profile-id" =
    some (.scalar .uint64) := rfl
  have built : (key.object scheduler.switchId >>= fun data =>
      data.set "scheduler-profile-id" (.uint profile)) =
      .ok ⟨.queue, queueObject scheduler.switchId code key profile⟩ := by
    rw [queueObject_eq_ok_iff.mpr ⟨switchFits, portFits, numberFits, code, encoded, rfl⟩,
      Results.ok_bind]
    exact (Authored.set_uint_eq_ok_iff found ⟨rfl, rfl⟩).mpr ⟨profileFits, rfl⟩
  exact Task.ends_bind (submit_ends built accepted) (Task.ends_pure ())

theorem setChildren_ends {group : Nat} {ids : List Nat}
    (switchFits : scheduler.switchId < countOfBits 32)
    (groupFits : group < countOfBits 64) (few : ids.length < countOfBits 32)
    (encoded : ObjectClass.schedulerGroup.encode "child-list" (.list ids) =
      .ok (.list (ids.map fun id : Nat => Storage.uint64.write id)))
    (accepted : memory.transact [⟨.set, groupObject scheduler.switchId group
      [("child_count", Storage.uint32.word ids.length),
        ("child-list", .list (ids.map fun id : Nat => Storage.uint64.write id))]⟩] =
      (.ok answers, after)) :
    (scheduler.setChildren group ids).run.Ends Memory.responder memory
      (.ok ()) after := by
  have found : ObjectClass.schedulerGroup.spec? "child_count" =
    some (.scalar .uint32) := rfl
  have built : (schedulerGroup scheduler.switchId group >>= fun data =>
      data.set "child-list" (.list ids) >>= fun data =>
        data.set "child_count" (.uint ids.length)) =
      .ok ⟨.schedulerGroup, groupObject scheduler.switchId group
        [("child_count", Storage.uint32.word ids.length),
          ("child-list", .list (ids.map fun id : Nat => Storage.uint64.write id))]⟩ := by
    rw [schedulerGroup_eq_ok_iff.mpr ⟨switchFits, groupFits, rfl⟩, Results.ok_bind,
      Authored.set_eq_ok_iff.mpr ⟨_, encoded, rfl⟩, Results.ok_bind]
    exact (Authored.set_uint_eq_ok_iff found ⟨rfl, rfl⟩).mpr ⟨few, rfl⟩
  rw [setChildren, if_neg (Nat.not_le.mpr few)]
  exact Task.ends_bind (submit_ends built accepted) (Task.ends_pure ())

end Scheduler

/-! ## Composed bindings -/

namespace SchedulerTree

/-- Whenever the bindings are carried out while the tree is built, all of them are
applied, and make just these settings. -/
def Applies (tree : SchedulerTree) (names : Names) (switchId port : Nat) (start : Memory)
    (bindings : Exchange (List Outcome)) (targets : List String)
    (work : Set StoreObject) : Prop :=
  ∀ given memory, tree.Building names switchId port start given memory →
    ∃ after, bindings.Ends Memory.responder memory (targets.map Outcome.applied) after ∧
      tree.Building names switchId port start (given ∪ work) after

section Applies

variable {tree : SchedulerTree} {names : Names} {switchId port : Nat} {start : Memory}

theorem applies_none : tree.Applies names switchId port start (.done []) [] ∅ := by
  intro given memory building
  rw [Set.union_empty]
  exact ⟨memory, Exchange.ends_done_iff.mpr ⟨rfl, rfl⟩, building⟩

theorem Applies.append {left right : Exchange (List Outcome)}
    {leftTargets rightTargets : List String} {leftWork rightWork : Set StoreObject}
    (first : tree.Applies names switchId port start left leftTargets leftWork)
    (second : tree.Applies names switchId port start right rightTargets rightWork) :
    tree.Applies names switchId port start
      (left.bind fun early => right.bind fun late => .done (early ++ late))
      (leftTargets ++ rightTargets) (leftWork ∪ rightWork) := by
  intro given memory building
  rcases first given memory building with ⟨middle, leftEnds, building⟩
  rcases second _ middle building with ⟨after, rightEnds, building⟩
  rw [← Set.union_assoc, List.map_append]
  exact ⟨after, leftEnds.bind
    (rightEnds.bind (Exchange.ends_done_iff.mpr ⟨rfl, rfl⟩)), building⟩

theorem applies_collect {Item : Type} {step : Item → Exchange (List Outcome)}
    {targets : Item → List String} {work : Item → Set StoreObject} {items : List Item}
    (each : ∀ item ∈ items,
      tree.Applies names switchId port start (step item) (targets item) (work item)) :
    tree.Applies names switchId port start (Exchange.collect items step)
      (items.flatMap targets) {object | ∃ item ∈ items, object ∈ work item} := by
  intro given memory building
  rw [List.map_flatMap]
  exact Exchange.ends_collect
    (fun item member done before => each item member done before) building

theorem applies_record {task : Task Unit} {target : String} {object : StoreObject}
    (buildable : tree.Buildable names start switchId port)
    (isSetting : object ∈ tree.settings names start.contents switchId port)
    (ends : ∀ given memory, tree.Building names switchId port start given memory →
      ∀ answers after, memory.transact [⟨.set, object⟩] = (.ok answers, after) →
        task.run.Ends Memory.responder memory (.ok ()) after) :
    tree.Applies names switchId port start
      ((task.record target).bind fun outcome => .done [outcome]) [target] {object} := by
  intro given memory building
  rcases building.set buildable isSetting with ⟨answers, after, accepted, next⟩
  have ended := ends given memory building answers after accepted
  exact ⟨after, (Task.ends_record ended).bind
    (Exchange.ends_done_iff.mpr ⟨rfl, rfl⟩), next⟩

end Applies

end SchedulerTree

/-! ## The walk -/

namespace Scheduler

open SchedulerTree

/-! ### Targets -/

def profileTargets (target : String) : Option String → List String
  | none => []
  | some profile => [target ++ " profile " ++ profile]

def childrenTargets (target : String) : Option (List Nat) → List String
  | none => []
  | some _ => [target ++ " children"]

def groupTargets (port : Port) (level : SchedulerLevel)
    (group : GroupNode) : List String :=
  profileTargets (groupTarget port level group) group.profile ++
    childrenTargets (groupTarget port level group) group.children

def queueTargets (port : Port) (queue : QueueNode) : List String :=
  let key : QueueKey := ⟨port.ifindex, queue.queueType, queue.number⟩
  profileTargets (port.name ++ " " ++ key.text) queue.profile

def levelTargets (port : Port) (level : SchedulerLevel) : List String :=
  level.groups.flatMap (groupTargets port level) ++
    level.queues.flatMap (queueTargets port)

def treeTargets (port : Port) (tree : SchedulerTree) : List String :=
  tree.levels.flatMap (levelTargets port)

variable {scheduler : Scheduler} {names : Names} {port : Port} {tree : SchedulerTree}
  {start memory : Memory} {given : Set StoreObject} {index : GroupIndex}

section Walk

variable (buildable : tree.Buildable names start scheduler.switchId port.ifindex)

include buildable

/-! ### Profiles of groups and queues -/

theorem applyProfile_applies {level : SchedulerLevel} (isLevel : level ∈ tree.levels)
    {group : GroupNode} (isNode : group ∈ level.groups) {id : Nat}
    (found : (start.contents.groupIds port.ifindex level.level)[group.number]? = some id)
    (target : String) :
    tree.Applies names scheduler.switchId port.ifindex start
      (scheduler.applyProfile names target id group.profile)
      (profileTargets target group.profile)
      (groupObject scheduler.switchId id '' profileRows names group) := by
  cases declared : group.profile with
  | none =>
      have noRows : profileRows names group = ∅ := by simp [profileRows, declared]
      rw [noRows, Set.image_empty]
      exact applies_none
  | some name =>
      rcases Option.isSome_iff_exists.mp
        (buildable.fits.groupProfiles level isLevel group isNode name declared) with
          ⟨profile, isKnown⟩
      have rows : profileRows names group =
          {[("scheduler-profile-id", Storage.uint64.word profile)]} := by
        simp [profileRows, declared, isKnown]
      have isSetting : groupObject scheduler.switchId id
          [("scheduler-profile-id", Storage.uint64.word profile)] ∈
            tree.settings names start.contents scheduler.switchId port.ifindex := by
        refine ⟨level, isLevel, .inl ⟨group, isNode, id, found, _, .inl ?_, rfl⟩⟩
        rw [rows]
        rfl
      rw [rows, Set.image_singleton]
      apply applies_record buildable isSetting
      intro given memory building answers after accepted
      have looked : names.profileId name = .ok profile := by rw [Names.profileId, isKnown]
      have groupFits := Contents.groupIds_lt (List.mem_of_getElem? found)
      exact Task.ends_bind (Task.ends_done looked)
        (bindGroupProfile_ends buildable.switchFits groupFits
          (buildable.known name profile isKnown) accepted)

theorem applyQueue_applies {level : SchedulerLevel} (isLevel : level ∈ tree.levels)
    {queue : QueueNode} (isNode : queue ∈ level.queues) :
    tree.Applies names scheduler.switchId port.ifindex start
      (scheduler.applyQueue names port queue) (queueTargets port queue)
      (queueSettings names scheduler.switchId port.ifindex queue) := by
  cases declared : queue.profile with
  | none =>
      have noSettings : queueSettings names scheduler.switchId
          port.ifindex queue = ∅ := by
        simp [queueSettings, declared]
      rw [noSettings, applyQueue, queueTargets, declared]
      exact applies_none
  | some name =>
      rcases Option.isSome_iff_exists.mp
        (buildable.fits.queueProfiles level isLevel queue isNode name declared) with
          ⟨profile, isKnown⟩
      rcases buildable.fits.stored level isLevel queue isNode with ⟨stored, -, isQueue, -⟩
      rcases StoreObject.isQueue_iff.mp isQueue with
        ⟨portFits, numberFits, code, encoded, -⟩
      let key : QueueKey := ⟨port.ifindex, queue.queueType, queue.number⟩
      have settings : queueSettings names scheduler.switchId port.ifindex queue =
          {queueObject scheduler.switchId code key profile} := by
        ext object
        simp [queueSettings, declared, isKnown, encoded, key]
      have isSetting : queueObject scheduler.switchId code key profile ∈
          tree.settings names start.contents scheduler.switchId port.ifindex := by
        refine ⟨level, isLevel, .inr ⟨queue, isNode, ?_⟩⟩
        rw [settings]
        rfl
      rw [settings, applyQueue, queueTargets, declared]
      apply applies_record buildable isSetting
      intro given memory building answers after accepted
      have looked : names.profileId name = .ok profile := by rw [Names.profileId, isKnown]
      exact Task.ends_bind (Task.ends_done looked)
        (bindQueueProfile_ends buildable.switchFits portFits numberFits encoded
          (buildable.known name profile isKnown) accepted)

/-! ### Children -/

/-! The groups have been read, so the index lists what is stored for the port. -/

variable (listed : ∀ level, index.level level =
  start.contents.groupIds port.ifindex level)

include listed

/-- A child is found by its ordinal or its position, whatever has been set so far. -/
theorem resolveChild_ends
    (building : tree.Building names scheduler.switchId port.ifindex start given memory)
    {level child id : Nat} {next : SchedulerLevel} (isNext : tree.next? level = some next)
    (isChild : tree.childId? start.contents port.ifindex level child = some id) :
    (scheduler.resolveChild port next index child).run.Ends
      Memory.responder memory (.ok id)
      memory := by
  simp only [childId?, isNext] at isChild
  rw [resolveChild]
  split at isChild
  · rename_i leaf
    rcases Option.bind_eq_some_iff.mp isChild with ⟨queue, isQueued, located⟩
    rcases Option.bind_eq_some_iff.mp located with ⟨stored, isFound, hasId⟩
    have isQueue : stored.IsQueue ⟨port.ifindex, queue.queueType, queue.number⟩ := by
      simpa using List.find?_some isFound
    have looked :=
      building.queueId_ends buildable (List.mem_of_find?_eq_some isFound) isQueue rfl
      hasId
    rw [if_pos leaf, isQueued]
    exact Task.ends_bind (Task.ends_require_some _ _)
      (Task.ends_bind looked (Task.ends_require_some _ _))
  · rename_i inner
    rw [if_neg inner, GroupIndex.get?, listed, isChild]
    exact Task.ends_require_some _ _

theorem resolveChildren_ends
    (building : tree.Building names scheduler.switchId port.ifindex start given memory)
    {level : SchedulerLevel} {next : SchedulerLevel}
    (isNext : tree.next? level.level = some next) {children ids : List Nat}
    (resolved : children.mapM
      (tree.childId? start.contents port.ifindex level.level) = some ids) :
    (scheduler.resolveChildren port tree level index children).run.Ends
      Memory.responder memory (.ok ids) memory := by
  rw [resolveChildren, isNext]
  refine Task.ends_bind (Task.ends_require_some _ _) (Task.ends_mapM ?_)
  exact (Results.mapM_eq_some_iff.mp resolved).imp fun child id isChild =>
    resolveChild_ends buildable listed building isNext isChild

theorem applyChildren_applies {level : SchedulerLevel} (isLevel : level ∈ tree.levels)
    {group : GroupNode} (isNode : group ∈ level.groups) {id : Nat}
    (found : (start.contents.groupIds port.ifindex level.level)[group.number]? = some id)
    (target : String) :
    tree.Applies names scheduler.switchId port.ifindex start
      (scheduler.applyChildren port tree level index target id group.children)
      (childrenTargets target group.children)
      (groupObject scheduler.switchId id ''
        tree.childrenRows start.contents port.ifindex level.level group) := by
  cases declared : group.children with
  | none =>
      have noRows : tree.childrenRows start.contents port.ifindex
          level.level group = ∅ := by
        simp [childrenRows, declared]
      rw [noRows, Set.image_empty]
      exact applies_none
  | some children =>
      rcases buildable.fits.children level isLevel group isNode children
        declared with ⟨few, -⟩
      rcases Option.isSome_iff_exists.mp
        (buildable.continues level isLevel group isNode
          (Option.isSome_of_mem declared)) with
          ⟨next, isNext⟩
      rcases buildable.fits.exists_childIds buildable.serves.distinct isLevel
        isNode declared with ⟨ids, resolved⟩
      have asMany : children.length = ids.length :=
        (Results.mapM_eq_some_iff.mp resolved).length_eq
      have rows : tree.childrenRows start.contents port.ifindex level.level group =
          {[("child_count", Storage.uint32.word ids.length),
            ("child-list", .list (ids.map fun id : Nat => Storage.uint64.write id))]} :=
              by
        simp [childrenRows, declared, resolved, asMany]
      have isSetting : groupObject scheduler.switchId id
          [("child_count", Storage.uint32.word ids.length),
            ("child-list", .list (ids.map fun id : Nat => Storage.uint64.write id))] ∈
            tree.settings names start.contents scheduler.switchId port.ifindex := by
        refine ⟨level, isLevel, .inl ⟨group, isNode, id, found, _, .inr ?_, rfl⟩⟩
        rw [rows]
        rfl
      rw [rows, Set.image_singleton]
      apply applies_record buildable isSetting
      intro given memory building answers after accepted
      have groupFits := Contents.groupIds_lt (List.mem_of_getElem? found)
      exact Task.ends_bind (resolveChildren_ends buildable listed building
        isNext resolved) (setChildren_ends buildable.switchFits groupFits (asMany ▸ few)
          (encode_childList resolved) accepted)

/-! ### Groups and levels -/

theorem applyGroup_applies {level : SchedulerLevel} (isLevel : level ∈ tree.levels)
    {group : GroupNode} (isNode : group ∈ level.groups) :
    tree.Applies names scheduler.switchId port.ifindex start
      (scheduler.applyGroup names port tree level index group)
        (groupTargets port level group)
      (tree.groupSettings names start.contents scheduler.switchId port.ifindex level.level
        group) := by
  obtain ⟨id, found⟩ : ∃ id,
      (start.contents.groupIds port.ifindex level.level)[group.number]? = some id :=
    ⟨_, List.getElem?_eq_getElem (buildable.fits.ordinals level isLevel group isNode)⟩
  have settings : tree.groupSettings names start.contents scheduler.switchId port.ifindex
      level.level group = groupObject scheduler.switchId id '' profileRows names group ∪
        groupObject scheduler.switchId id ''
          tree.childrenRows start.contents port.ifindex level.level group := by
    rw [← Set.image_union]
    ext object
    simp [groupSettings, found]
  have isGiven : index.get? level.level group.number = some id := by
    rw [GroupIndex.get?, listed, found]
  rw [settings]
  unfold applyGroup
  simp only [isGiven]
  exact (applyProfile_applies buildable isLevel isNode found _).append
    (applyChildren_applies buildable listed isLevel isNode found _)

/-- Either level applies what it declares; a well-formed one declares nothing else. -/
theorem applyLevel_applies {level : SchedulerLevel} (isLevel : level ∈ tree.levels) :
    tree.Applies names scheduler.switchId port.ifindex start
      (scheduler.applyLevel names port tree (some index) level) (levelTargets port level)
      (tree.levelSettings names start.contents scheduler.switchId
        port.ifindex level) := by
  have wellFormed := buildable.fits.wellFormed level isLevel
  have groups := applies_collect fun group (isNode : group ∈ level.groups) =>
    applyGroup_applies buildable listed isLevel isNode
  have queues := applies_collect fun queue (isNode : queue ∈ level.queues) =>
    applyQueue_applies buildable isLevel isNode
  rw [applyLevel]
  cases leaf : level.leaf with
  | true =>
      have noGroups : level.groups = [] := by
        simpa [SchedulerLevel.fault?, leaf] using wellFormed
      simpa [levelTargets, levelSettings, noGroups] using queues
  | false =>
      have noQueues : level.queues = [] := by
        simpa [SchedulerLevel.fault?, leaf] using wellFormed
      simpa [levelTargets, levelSettings, noQueues] using groups

end Walk

end Scheduler

/-! ## The whole tree -/

/-- `new` has the values that the tree asks `old` to have, and all others of `old`. -/
structure SchedulerTree.Built (tree : SchedulerTree) (names : Names) (contents : Contents)
    (port : Nat) (old new : StoreObject) : Prop where
  classPath : new.classPath = old.classPath
  plain : new.IsPlain
  asked : ∀ path value, tree.Asks names contents port old path value →
    new.get? path = some value
  unasked : ∀ path, (∀ value, ¬tree.Asks names contents port old path value) →
    new.get? path = old.get? path

namespace Scheduler

open SchedulerTree

variable {scheduler : Scheduler} {names : Names} {port : Port} {tree : SchedulerTree}
  {memory : Memory}

/-- A tree that can be built is built: every binding is applied, and afterwards each
stored object has what the tree asks for and is as it was besides. -/
theorem applyTree_builds
    (buildable : tree.Buildable names memory scheduler.switchId port.ifindex) :
    ∃ after, (scheduler.applyTree names port tree).Ends Memory.responder memory
        ((treeTargets port tree).map Outcome.applied) after ∧
      after.rules = memory.rules ∧ after.unavailable = memory.unavailable ∧
      after.contents.nextId = memory.contents.nextId ∧
      List.Forall₂ (tree.Built names memory.contents port.ifindex) memory.contents.objects
        after.contents.objects := by
  rcases readGroups_ends buildable.switchFits buildable.portFits
    buildable.serves.available buildable.serves.plain buildable.serves.distinct
    buildable.serves.groups with ⟨index, read, listed⟩
  have start : tree.Building names scheduler.switchId port.ifindex memory ∅ memory :=
    ⟨Set.empty_subset _, Memory.overwritten_empty buildable.serves.plain⟩
  rcases applies_collect
    (fun level (isLevel : level ∈ tree.levels) =>
      applyLevel_applies buildable listed isLevel)
    ∅ memory start with ⟨after, ends, built⟩
  rw [Set.empty_union] at built
  refine ⟨after, Exchange.Ends.bind read ends, built.overwritten.rules,
    built.overwritten.unavailable, built.overwritten.nextId, ?_⟩
  have stored := (List.forall₂_and_left (p := (· ∈ memory.contents.objects)) _ _).mpr
    ⟨fun _ member => member, built.overwritten.objects⟩
  apply stored.imp
  intro old new ⟨member, overwritten⟩
  exact ⟨overwritten.classPath, overwritten.plain,
    fun path value => get?_of_asks buildable member overwritten,
    fun path => get?_of_unasked buildable built.within member overwritten⟩

def groupOverQueue : SchedulerTree :=
  ⟨[{ level := 0, groups :=
    [{ number := 0, profile := some "fair", children := some [0] }] },
    { level := 1, leaf := true,
      queues := [{ queueType := "UCAST", number := 0, profile := some "fair" }] }]⟩

def switchWithQueue : Memory :=
  let port : TopologyPort :=
    { name := "Ethernet0", ifindex := 1, schedulerGroups := [1], unicastQueues := 1 }
  (Memory.ofTopology 0 ⟨[port]⟩).toOption.getD (.new 0)

theorem serves_switchWithQueue : switchWithQueue.Serves 0 1 where
  unruled := by decide +kernel
  available := by decide +kernel
  plain := by decide +kernel
  distinct := Contents.distinct_of_classPaths (by decide +kernel)
  groups := by decide +kernel
  queues := by decide +kernel

theorem applyTree_builds_groupOverQueue :
    let names := ({} : Names).addProfile "fair" 7
    let port : Port := ⟨"Ethernet0", 1, InterfaceClass.frontPanel.typeName⟩
    groupOverQueue.Buildable names switchWithQueue 0 1 ∧
      ∃ after, (applyTree ⟨0⟩ names port groupOverQueue).Ends
        Memory.responder switchWithQueue
          [.applied "Ethernet0 sg 0/0 profile fair", .applied "Ethernet0 sg 0/0 children",
            .applied "Ethernet0 queue 1:UCAST:0 profile fair"] after ∧
        List.Forall₂ (groupOverQueue.Built names switchWithQueue.contents 1)
          switchWithQueue.contents.objects after.contents.objects := by
  intro names port
  have buildable : groupOverQueue.Buildable names switchWithQueue 0 1 := by
    refine ⟨by decide, by decide, ?_, serves_switchWithQueue, ?_, by decide⟩
    · intro profile id isKnown
      simp only [names, Names.addProfile, Directory.get?_insert] at isKnown
      split at isKnown
      · cases isKnown
        decide
      · cases isKnown
    · constructor <;> decide +kernel
  have targets : treeTargets port groupOverQueue = ["Ethernet0 sg 0/0 profile fair",
      "Ethernet0 sg 0/0 children", "Ethernet0 queue 1:UCAST:0 profile fair"] := by
    decide +kernel
  rcases @applyTree_builds ⟨0⟩ names port _ _ buildable with ⟨after, ends, -, -, -, built⟩
  rw [targets] at ends
  exact ⟨buildable, after, ends, built⟩

def emptyChildList : SchedulerTree :=
  ⟨[{ level := 0, groups := [{ number := 0, children := some [] }] }]⟩

/-- A child list on the last level is refused, although it names no child. -/
theorem applyTree_builds_refuted :
    let port : Port := ⟨"Ethernet0", 1, InterfaceClass.frontPanel.typeName⟩
    switchWithQueue.Serves 0 1 ∧ emptyChildList.Fits {} switchWithQueue.contents 1 ∧
      ((applyTree ⟨0⟩ {} port emptyChildList).run Memory.responder switchWithQueue).1 =
        some [.failed "Ethernet0 sg 0/0 children"
          (.config "scheduler-tree" "level 0 has children but no next level")] := by
  refine ⟨serves_switchWithQueue, ?_, by decide +kernel⟩
  constructor <;> decide +kernel

end Scheduler

end SwitchQos
