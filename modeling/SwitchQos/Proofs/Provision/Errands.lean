import SwitchQos.Proofs.Provision.Bindings
import SwitchQos.Proofs.Provision.Origins

namespace SwitchQos

/-! The items that are declared for a port, as errands: what is to become of each of them
is told by the configuration, the names that are known and the groups that have been
discovered. What has become of them makes a ledger, which has an entry for each errand and
from which the outcomes and the operations can be read off alike. -/

/-! ## Plans and ledgers -/

inductive Plan where
  | skip (reason : String)
  | fail (error : ProvisionError)
  /-- Submit one of these operations by itself. -/
  | submit (operations : Set Operation)

structure Errand where
  target : String
  plan : Plan

inductive Verdict where
  | applied (operation : Operation)
  | skipped (reason : String)
  | failed (error : ProvisionError)
  deriving DecidableEq

structure Entry where
  target : String
  verdict : Verdict
  deriving DecidableEq

namespace Entry

def status (entry : Entry) : Status :=
  match entry.verdict with
  | .applied _ => .applied
  | .skipped reason => .skipped reason
  | .failed error => .failed error

def outcome (entry : Entry) : Outcome := ⟨entry.target, entry.status⟩

def operations (entry : Entry) : List Operation :=
  match entry.verdict with
  | .applied operation => [operation]
  | .skipped _ | .failed _ => []

theorem applied_of_mem_operations {entry : Entry} {operation : Operation}
    (made : operation ∈ entry.operations) : entry.verdict = .applied operation := by
  rw [operations] at made
  split at made
  · rename_i own isOwn
    rw [isOwn, List.mem_singleton.mp made]
  · cases made
  · cases made

end Entry

/-- A plan may come to this. What can be submitted may be refused, and may turn out to be
impossible before it is submitted. -/
inductive Plan.Leads : Plan → Verdict → Prop
  | skip (reason : String) : Leads (.skip reason) (.skipped reason)
  | fail (error : ProvisionError) : Leads (.fail error) (.failed error)
  | applied {operations : Set Operation} {operation : Operation}
      (isOne : operation ∈ operations) :
      Leads (.submit operations) (.applied operation)
  | refused (operations : Set Operation) (error : ProvisionError) :
      Leads (.submit operations) (.failed error)

structure Errand.Settles (errand : Errand) (entry : Entry) : Prop where
  target : entry.target = errand.target
  leads : errand.plan.Leads entry.verdict

/-- What a task comes to that follows the plan. -/
def Plan.ComesTo {Result : Type} (plan : Plan) (operations : List Operation) :
    Except ProvisionError Result → Prop
  | .ok _ => ∃ operation, plan.Leads (.applied operation) ∧ operations = [operation]
  | .error error => plan.Leads (.failed error) ∧ operations = []

theorem Plan.ComesTo.exists_entry {Result : Type} {plan : Plan}
    {operations : List Operation} {result : Except ProvisionError Result}
    (comes : plan.ComesTo operations result) (target : String) :
    ∃ entry, Errand.Settles ⟨target, plan⟩ entry ∧ operations = entry.operations ∧
      Outcome.ofResult target result = entry.outcome := by
  cases result with
  | error error => exact ⟨⟨target, .failed error⟩, ⟨rfl, comes.1⟩, comes.2, rfl⟩
  | ok value =>
      rcases comes with ⟨operation, leads, rfl⟩
      exact ⟨⟨target, .applied operation⟩, ⟨rfl, leads⟩, rfl, rfl⟩

/-! ## Maps -/

def Direction.mapObject (direction : Direction) (switchId port : Nat) (mapType : MapType)
    (id : Nat) : StoreObject :=
  direction.objectClass.assemble
    [(mapType.name, Storage.uint64.word id), ("port-id", Storage.uint32.word port),
     ("switch-id", Storage.uint32.word switchId)]

section Maps

variable (switchId : Nat) (names : Names) (port : Port)

def mapErrand (direction : Direction) (mapType : MapType) (tag : String) : Errand where
  target := port.name ++ " " ++ direction.name ++ " " ++ mapType.name ++ " " ++ tag
  plan :=
    if mapType.isProvisionable then
      match names.maps.get? tag with
      | some id => .submit {⟨.set, direction.mapObject switchId port.ifindex mapType id⟩}
      | none => .fail (.lookupMiss .map tag)
    else .skip notProvisioned

def mapErrands (node : PortNode) : List Errand :=
  (node.ingress.map fun row => mapErrand switchId names port .ingress row.1 row.2) ++
    node.egress.map fun row => mapErrand switchId names port .egress row.1 row.2

end Maps

/-! ## Trees -/

/-- The id of a child of a group on the level: that of a queue in the list of the next
level if that is a leaf, else of a group that has been discovered on it. -/
def SchedulerTree.HasChild (tree : SchedulerTree) (start : Contents) (port : Nat)
    (index : GroupIndex) (level child id : Nat) : Prop :=
  ∃ next ∈ tree.next? level,
    if next.leaf then
      ∃ queue ∈ next.queues[child]?, ∃ stored ∈ start.objects,
        stored.IsQueue ⟨port, queue.queueType, queue.number⟩ ∧
          ObjectClass.queue.number? "id" stored = some id
    else index.get? next.level child = some id

namespace Scheduler

section Trees

variable (scheduler : Scheduler) (names : Names) (start : Contents) (port : Port)
  (tree : SchedulerTree)

def profileErrand (target : String) (settings : Nat → Set StoreObject)
    (name : String) : Errand where
  target := target ++ " profile " ++ name
  plan :=
    match names.profiles.get? name with
    | some id => .submit {operation | ∃ object ∈ settings id, operation = ⟨.set, object⟩}
    | none => .fail (.lookupMiss .schedulerProfile name)

def groupProfile (group profile : Nat) : StoreObject :=
  groupObject scheduler.switchId group
    [("scheduler-profile-id", Storage.uint64.word profile)]

def groupChildren (group : Nat) (ids : List Nat) : StoreObject :=
  groupObject scheduler.switchId group
    [("child_count", Storage.uint32.word ids.length),
     ("child-list", .list (ids.map fun id : Nat => Storage.uint64.write id))]

def childrenErrand (target : String) (level : SchedulerLevel)
    (index : GroupIndex) (group : Nat) (children : List Nat) : Errand where
  target := target ++ " children"
  plan := .submit {operation | ∃ ids,
    List.Forall₂ (tree.HasChild start port.ifindex index level.level) children ids ∧
      operation = ⟨.set, scheduler.groupChildren group ids⟩}

def groupErrands (level : SchedulerLevel) (index : GroupIndex) (group : GroupNode) :
    List Errand :=
  let target := groupTarget port level group
  match index.get? level.level group.number with
  | some id =>
      group.profile.toList.map (profileErrand names target fun profile =>
          {scheduler.groupProfile id profile}) ++
        group.children.toList.map
          (scheduler.childrenErrand start port tree target level index id)
  | none =>
      if level.platformMayOmit then [⟨target, .skip "not provided by the platform"⟩]
      else [⟨target, .fail (shortfall port index level.level group.number)⟩]

def queueErrands (queue : QueueNode) : List Errand :=
  let key : QueueKey := ⟨port.ifindex, queue.queueType, queue.number⟩
  queue.profile.toList.map
    (profileErrand names (port.name ++ " " ++ key.text) fun profile =>
    {object | ∃ code, SymbolFamily.queueType.encode queue.queueType = .ok code ∧
      object = queueObject scheduler.switchId code key profile})

def levelErrands (index : Option GroupIndex) (level : SchedulerLevel) : List Errand :=
  if level.leaf then level.queues.flatMap (scheduler.queueErrands names port)
  else
    match index with
    | some index =>
        level.groups.flatMap (scheduler.groupErrands names start port tree level index)
    | none => level.groups.map fun group =>
        ⟨groupTarget port level group, .skip "scheduler groups not discovered"⟩

/-- All items of a tree. If the groups cannot be read, that is an item of its own. -/
def treeErrands : Except ProvisionError GroupIndex → List Errand
  | .ok index =>
      tree.levels.flatMap (scheduler.levelErrands names start port tree (some index))
  | .error error =>
      ⟨port.name ++ " scheduler groups", .fail error⟩ ::
        tree.levels.flatMap (scheduler.levelErrands names start port tree none)

end Trees

end Scheduler

/-! ## What is applied -/

inductive Scheduler.Applies (scheduler : Scheduler) (names : Names)
    (start : Contents) (port : Port) (tree : SchedulerTree)
    (found : Except ProvisionError GroupIndex) : String → StoreObject → Prop
  | groupProfile {level : SchedulerLevel} {group : GroupNode}
      {index : GroupIndex} {id : Nat} {name : String} {profile : Nat}
      (isLevel : level ∈ tree.levels) (isGroup : group ∈ level.groups)
      (isFound : found = .ok index)
      (discovered : index.get? level.level group.number = some id)
      (declared : group.profile = some name)
      (named : names.profiles.get? name = some profile) :
      Applies scheduler names start port tree found
        (groupTarget port level group ++ " profile " ++ name)
        (scheduler.groupProfile id profile)
  | groupChildren {level : SchedulerLevel} {group : GroupNode}
      {index : GroupIndex} {id : Nat} {children ids : List Nat}
      (isLevel : level ∈ tree.levels) (noLeaf : level.leaf = false)
      (isGroup : group ∈ level.groups) (isFound : found = .ok index)
      (discovered : index.get? level.level group.number = some id)
      (declared : group.children = some children)
      (resolved : List.Forall₂
        (tree.HasChild start port.ifindex index level.level) children ids) :
      Applies scheduler names start port tree found
        (groupTarget port level group ++ " children") (scheduler.groupChildren id ids)
  | queueProfile {level : SchedulerLevel} {queue : QueueNode} {code : Nat} {name : String}
      {profile : Nat} (isLevel : level ∈ tree.levels) (isQueue : queue ∈ level.queues)
      (declared : queue.profile = some name)
      (named : names.profiles.get? name = some profile) :
      Applies scheduler names start port tree found
        (port.name ++ " " ++ (QueueKey.mk port.ifindex queue.queueType
          queue.number).text ++ " profile " ++ name)
        (queueObject scheduler.switchId code
          ⟨port.ifindex, queue.queueType, queue.number⟩ profile)

namespace Scheduler

variable {scheduler : Scheduler} {names : Names} {start : Contents} {port : Port}
  {tree : SchedulerTree} {level : SchedulerLevel}
  {found : Except ProvisionError GroupIndex} {errand : Errand} {operation : Operation}

section Applies

variable (leads : errand.plan.Leads (.applied operation))

include leads

theorem exists_of_profileErrand {target name : String} {settings : Nat → Set StoreObject}
    (same : profileErrand names target settings name = errand) :
    ∃ id, names.profiles.get? name = some id ∧
    ∃ object ∈ settings id, operation = ⟨.set, object⟩ := by
  subst same
  rw [profileErrand] at leads
  cases named : names.profiles.get? name with
  | none =>
      rw [named] at leads
      cases leads
  | some id =>
      rw [named] at leads
      cases leads with
      | applied isOne => exact ⟨id, rfl, isOne⟩

theorem applies_of_queueErrands (isLevel : level ∈ tree.levels)
    (member : errand ∈ level.queues.flatMap (scheduler.queueErrands names port)) :
    ∃ object, operation = ⟨.set, object⟩ ∧
      scheduler.Applies names start port tree found errand.target object := by
  rcases List.mem_flatMap.mp member with ⟨queue, isQueue, member⟩
  rcases List.mem_map.mp member with ⟨name, declared, same⟩
  rcases exists_of_profileErrand leads same with ⟨id, named, object, ⟨code, -, rfl⟩, rfl⟩
  subst same
  exact ⟨_, rfl, .queueProfile isLevel isQueue (Option.mem_toList.mp declared) named⟩

theorem applies_of_groupErrands {index : GroupIndex} {group : GroupNode}
    (isLevel : level ∈ tree.levels) (noLeaf : level.leaf = false)
    (isGroup : group ∈ level.groups)
    (member : errand ∈ scheduler.groupErrands names start port tree level index group) :
    ∃ object, operation = ⟨.set, object⟩ ∧
      scheduler.Applies names start port tree (.ok index) errand.target object := by
  rw [groupErrands] at member
  cases discovered : index.get? level.level group.number with
  | none =>
      rw [discovered] at member
      dsimp only at member
      split at member
      all_goals
        cases List.mem_singleton.mp member
        cases leads
  | some id =>
      rw [discovered] at member
      rcases List.mem_append.mp member with isProfile | isChildren
      · rcases List.mem_map.mp isProfile with ⟨name, declared, same⟩
        rcases exists_of_profileErrand leads same with ⟨profile, named, _, rfl, rfl⟩
        subst same
        exact ⟨_, rfl, .groupProfile isLevel isGroup rfl discovered
          (Option.mem_toList.mp declared) named⟩
      · rcases List.mem_map.mp isChildren with ⟨children, declared, rfl⟩
        cases leads with
        | applied isOne =>
            rcases isOne with ⟨ids, resolved, rfl⟩
            exact ⟨_, rfl, .groupChildren isLevel noLeaf isGroup rfl discovered
              (Option.mem_toList.mp declared) resolved⟩

theorem applies_of_treeErrands
    (member : errand ∈ scheduler.treeErrands names start port tree found) :
    ∃ object, operation = ⟨.set, object⟩ ∧
      scheduler.Applies names start port tree found errand.target object := by
  cases found with
  | ok index =>
      rcases List.mem_flatMap.mp member with ⟨level, isLevel, member⟩
      rw [levelErrands] at member
      split at member
      · exact applies_of_queueErrands leads isLevel member
      · rename_i noLeaf
        rcases List.mem_flatMap.mp member with ⟨group, isGroup, member⟩
        exact applies_of_groupErrands leads isLevel
          (Bool.eq_false_iff.mpr noLeaf) isGroup member
  | error error =>
      rcases List.mem_cons.mp member with rfl | member
      · cases leads
      · rcases List.mem_flatMap.mp member with ⟨level, isLevel, member⟩
        rw [levelErrands] at member
        split at member
        · exact applies_of_queueErrands leads isLevel member
        · rcases List.mem_map.mp member with ⟨group, -, rfl⟩
          cases leads

end Applies

end Scheduler

/-! ## Tasks that follow a plan -/

namespace Task

open Exchange

variable {Result : Type} {replies : Replies} {plan : Plan} {operations : Set Operation}

theorem follows_failure (error : ProvisionError) :
    (ExceptT.mk (.done (.error error)) : Task Result).run.Brings replies
      (Plan.fail error).ComesTo := ⟨.fail error, rfl⟩

/-- A look-up that fails is in order where something is to be submitted. -/
theorem Looks.follows_bind {post : Result → Prop} {task : Task Result}
    {next : Result → Task Unit} (looks : task.Looks replies post)
    (later : ∀ value, post value →
      (next value).run.Brings replies (Plan.submit operations).ComesTo) :
    (task >>= next).run.Brings replies (Plan.submit operations).ComesTo :=
  looks.brings_bind (fun error => ⟨.refused operations error, rfl⟩) later

theorem follows_setting {name : String} {object : StoreObject}
    (isOne : ⟨.set, object⟩ ∈ operations) :
    (setting name object).run.Brings replies (Plan.submit operations).ComesTo :=
  ⟨fun _ _ => ⟨_, .applied isOne, rfl⟩, fun _ => ⟨.refused operations _, rfl⟩⟩

end Task

/-! ## Bindings that do an errand -/

def Binding.Does (replies : Replies) (names : Names) (binding : Binding)
    (errand : Errand) : Prop :=
  (binding.record names).Brings replies fun operations outcomes =>
    ∃ entry, errand.Settles entry ∧ operations = entry.operations ∧
    outcomes = [entry.outcome]

section Does

open Exchange SwitchQos.Task

variable {replies : Replies} {names : Names} {start : Contents}
  {scheduler : Scheduler} {port : Port} {tree : SchedulerTree}

theorem does_skip {target reason : String} :
    Binding.Does replies names ⟨target, .skip reason⟩ ⟨target, .skip reason⟩ :=
  ⟨⟨target, .skipped reason⟩, ⟨rfl, .skip reason⟩, rfl, rfl⟩

theorem does_record {target : String} {plan : Plan} {task : Task Unit} {binding : Binding}
    (records : binding.record names = (task.record target).bind fun outcome =>
      .done [outcome])
    (follows : task.run.Brings replies plan.ComesTo) :
    binding.Does replies names ⟨target, plan⟩ := by
  rw [Binding.Does, records, Task.record, bind_eq_bind, bind_assoc]
  refine Brings.map (fun result => [Outcome.ofResult target result]) (follows.mono ?_)
  intro operations result comes
  rcases comes.exists_entry target with ⟨entry, settles, same, shown⟩
  exact ⟨entry, settles, same, congrArg (fun outcome => [outcome]) shown⟩

theorem does_task {target : String} {plan : Plan} {task : Task Unit}
    (follows : task.run.Brings replies plan.ComesTo) :
    Binding.Does replies names ⟨target, .task task⟩ ⟨target, plan⟩ :=
  does_record rfl follows

/-! ### Maps -/

theorem mapObject_of_build {direction : Direction} {switchId ifindex id : Nat}
    {mapType : MapType} {object : Authored}
    (built : (do
      let object ← direction.portObject switchId ifindex
      object.set mapType.name (.uint id)) = .ok object) :
    object.data = direction.mapObject switchId ifindex mapType id := by
  rcases Results.bind_eq_ok_iff.mp built with ⟨data, started, written⟩
  rcases portObject_eq_ok_iff.mp started with ⟨-, -, rfl⟩
  rcases Authored.set_eq_ok_iff.mp written with ⟨stored, encoded, rfl⟩
  have found := Direction.spec?_of_has (ObjectClass.has_of_encode encoded)
  rw [ObjectClass.encode_eq_ok_iff found,
    AttrSpec.encode_uint_eq_ok_iff ⟨rfl, rfl⟩] at encoded
  rw [encoded.2]
  rfl

theorem does_mapBinding {switchId : Nat} {direction : Direction} {mapType : MapType}
    {tag : String} :
    (mapBinding switchId names port direction mapType tag).Does replies names
      (mapErrand switchId names port direction mapType tag) := by
  rw [mapBinding, mapErrand]
  split
  · rw [bindMap, Names.mapId]
    apply does_task
    cases names.maps.get? tag with
    | none => exact follows_failure _
    | some id =>
        refine looks_ofCodec.follows_bind fun object built => ?_
        rw [mapObject_of_build built]
        exact follows_setting rfl
  · exact does_skip

theorem does_mapBindings {switchId : Nat} {node : PortNode} :
    List.Forall₂ (Binding.Does replies names) (mapBindings switchId names port node)
      (mapErrands switchId names port node) := by
  have each (direction : Direction) (bindings : MapBindings) :
      List.Forall₂ (Binding.Does replies names)
        (bindings.map fun row => mapBinding switchId names port direction row.1 row.2)
        (bindings.map fun row =>
          mapErrand switchId names port direction row.1 row.2) := by
    rw [List.forall₂_map_left_iff, List.forall₂_map_right_iff, List.forall₂_same]
    exact fun row _ => does_mapBinding
  exact List.rel_append (each _ _) (each _ _)

/-! ### Profiles -/

theorem does_profileBindings {target : String} {bind : Nat → Task Unit}
    {settings : Nat → Set StoreObject} {profile : Option String}
    (binds : ∀ id, (bind id).run.Brings replies
      (Plan.submit {operation | ∃ object ∈ settings id,
        operation = ⟨.set, object⟩}).ComesTo) :
    List.Forall₂ (Binding.Does replies names)
      (Scheduler.profileBindings target bind profile)
      (profile.toList.map (Scheduler.profileErrand names target settings)) := by
  cases profile with
  | none => exact .nil
  | some name =>
      refine .cons (does_record rfl ?_) .nil
      rw [Names.profileId]
      cases names.profiles.get? name with
      | none => exact follows_failure _
      | some id => exact binds id

theorem follows_setProfile {name : String} {objectClass : ObjectClass}
    {values : List (String × StoreValue)} {profile : Nat} {operations : Set Operation}
    (found : objectClass.spec? "scheduler-profile-id" = some (.scalar .uint64))
    (isOne : ⟨.set, objectClass.assemble
      (("scheduler-profile-id", Storage.uint64.word profile) :: values)⟩ ∈ operations) :
    (Task.ofCodec ((Authored.assembled objectClass values).set "scheduler-profile-id"
        (.uint profile)) >>= fun authored =>
          setting name authored.data).run.Brings replies
      (Plan.submit operations).ComesTo := by
  refine looks_ofCodec.follows_bind fun authored written => ?_
  rcases (Authored.set_uint_eq_ok_iff found ⟨rfl, rfl⟩).mp written with ⟨-, rfl⟩
  exact follows_setting isOne

theorem follows_bindGroupProfile {group profile : Nat} {operations : Set Operation}
    (isOne : ⟨.set, scheduler.groupProfile group profile⟩ ∈ operations) :
    (scheduler.bindGroupProfile group profile).run.Brings replies
      (Plan.submit operations).ComesTo := by
  simp only [Scheduler.bindGroupProfile, submit_set_eq]
  cases built : schedulerGroup scheduler.switchId group with
  | error cause => exact ⟨.refused operations _, rfl⟩
  | ok data =>
      rcases schedulerGroup_eq_ok_iff.mp built with ⟨-, -, rfl⟩
      exact follows_setProfile rfl isOne

theorem follows_bindQueueProfile {key : QueueKey} {profile : Nat}
    {operations : Set Operation}
    (areSome : ∀ code, SymbolFamily.queueType.encode key.queueType = .ok code →
      ⟨.set, queueObject scheduler.switchId code key profile⟩ ∈ operations) :
    (scheduler.bindQueueProfile key profile).run.Brings replies
      (Plan.submit operations).ComesTo := by
  simp only [Scheduler.bindQueueProfile, submit_set_eq]
  cases built : key.object scheduler.switchId with
  | error cause => exact ⟨.refused operations _, rfl⟩
  | ok data =>
      rcases queueObject_eq_ok_iff.mp built with ⟨-, -, -, code, encoded, rfl⟩
      exact follows_setProfile rfl (areSome code encoded)

/-! ### Children -/

theorem childList_of_encode {ids : List Nat} {members : StoreValue}
    (encoded : ObjectClass.schedulerGroup.encode "child-list" (.list ids) = .ok members) :
    members = .list (ids.map fun id : Nat => Storage.uint64.write id) := by
  have found : ObjectClass.schedulerGroup.spec? "child-list" = some (.list .uint64) := rfl
  rw [ObjectClass.encode_eq_ok_iff found] at encoded
  rcases Results.map_eq_ok_iff.mp encoded with ⟨items, written, rfl⟩
  refine congrArg StoreValue.list (List.forall₂_eq_eq_eq ▸ ?_)
  rw [List.forall₂_map_right_iff]
  exact (Results.mapM_eq_ok_iff.mp written).flip.imp fun item id encoded =>
    (Storage.encode_eq_ok_iff.mp encoded).2.symm

theorem follows_setChildren {group : Nat} {ids : List Nat} {operations : Set Operation}
    (isOne : ⟨.set, scheduler.groupChildren group ids⟩ ∈ operations) :
    (scheduler.setChildren group ids).run.Brings replies
      (Plan.submit operations).ComesTo := by
  have count : ObjectClass.schedulerGroup.spec? "child_count" =
    some (.scalar .uint32) := rfl
  rw [Scheduler.setChildren]
  split
  · exact ⟨.refused operations _, rfl⟩
  · rw [submit_set_eq]
    refine looks_ofCodec.follows_bind fun authored built => ?_
    rcases Results.bind_eq_ok_iff.mp built with ⟨data, isBuilt, written⟩
    rcases schedulerGroup_eq_ok_iff.mp isBuilt with ⟨-, -, rfl⟩
    rcases Results.bind_eq_ok_iff.mp written with ⟨listed, first, last⟩
    rcases Authored.set_eq_ok_iff.mp first with ⟨members, encoded, rfl⟩
    rcases (Authored.set_uint_eq_ok_iff count ⟨rfl, rfl⟩).mp last with ⟨-, rfl⟩
    rw [childList_of_encode encoded]
    exact follows_setting isOne

theorem looks_resolveChild {next : SchedulerLevel} {index : GroupIndex} {child : Nat} :
    (scheduler.resolveChild port next index child).Looks start.replies fun id =>
      if next.leaf then
        ∃ queue ∈ next.queues[child]?, ∃ stored ∈ start.objects,
          stored.IsQueue ⟨port.ifindex, queue.queueType, queue.number⟩ ∧
            ObjectClass.queue.number? "id" stored = some id
      else index.get? next.level child = some id := by
  rw [Scheduler.resolveChild]
  split
  · refine looks_require.bind fun queue isQueue =>
      Scheduler.looks_queueId.bind fun id? shows => ?_
    exact looks_require.mono fun id isId => ⟨queue, isQueue, shows id isId⟩
  · exact looks_require

theorem looks_resolveChildren {level : SchedulerLevel} {index : GroupIndex}
    {children : List Nat} :
    (scheduler.resolveChildren port tree level index children).Looks start.replies
      (List.Forall₂ (tree.HasChild start port.ifindex index level.level) children) :=
  looks_require.bind fun next isNext => looks_mapM fun _ _ =>
    looks_resolveChild.mono fun _ isChild => ⟨next, isNext, isChild⟩

theorem does_childrenBindings {target : String} {level : SchedulerLevel}
    {index : GroupIndex} {group : Nat} {children : Option (List Nat)} :
    List.Forall₂ (Binding.Does start.replies names)
      (scheduler.childrenBindings port tree level index target group children)
      (children.toList.map
        (scheduler.childrenErrand start port tree target level index group)) := by
  cases children with
  | none => exact .nil
  | some children =>
      refine .cons (does_task ?_) .nil
      exact looks_resolveChildren.follows_bind fun ids resolved =>
        follows_setChildren ⟨ids, resolved, rfl⟩

/-! ### Levels -/

theorem does_groupBindings {level : SchedulerLevel} {index : GroupIndex}
    {group : GroupNode} :
    List.Forall₂ (Binding.Does start.replies names)
      (scheduler.groupBindings port tree level index group)
      (scheduler.groupErrands names start port tree level index group) := by
  rw [Scheduler.groupBindings, Scheduler.groupErrands]
  cases index.get? level.level group.number with
  | some id =>
      refine List.rel_append (does_profileBindings fun profile => ?_)
        does_childrenBindings
      exact follows_bindGroupProfile ⟨_, rfl, rfl⟩
  | none =>
      dsimp only
      split
      · exact .cons does_skip .nil
      · exact .cons (does_task (follows_failure _)) .nil

theorem does_queueBindings {queue : QueueNode} :
    List.Forall₂ (Binding.Does start.replies names) (scheduler.queueBindings port queue)
      (scheduler.queueErrands names port queue) :=
  does_profileBindings fun _ => follows_bindQueueProfile fun code encoded =>
    ⟨_, ⟨code, encoded, rfl⟩, rfl⟩

private theorem forall₂_flatMap {Item Left Right : Type} {Relation : Left → Right → Prop}
    {left : Item → List Left} {right : Item → List Right} {items : List Item}
    (each : ∀ item, List.Forall₂ Relation (left item) (right item)) :
    List.Forall₂ Relation (items.flatMap left) (items.flatMap right) := by
  refine List.rel_flatMap (R := Eq) (List.forall₂_eq_eq_eq ▸ rfl) ?_
  rintro item _ rfl
  exact each item

theorem does_levelBindings {index : Option GroupIndex} {level : SchedulerLevel} :
    List.Forall₂ (Binding.Does start.replies names)
      (scheduler.levelBindings port tree index level)
      (scheduler.levelErrands names start port tree index level) := by
  unfold Scheduler.levelBindings Scheduler.levelErrands
  split
  · exact forall₂_flatMap fun _ => does_queueBindings
  · cases index with
    | some index => exact forall₂_flatMap fun _ => does_groupBindings
    | none =>
        dsimp only
        rw [List.forall₂_map_left_iff, List.forall₂_map_right_iff, List.forall₂_same]
        exact fun group _ => does_skip

theorem does_treeBindings {found : Except ProvisionError GroupIndex} :
    List.Forall₂ (Binding.Does start.replies names)
      (scheduler.treeBindings port tree found)
      (scheduler.treeErrands names start port tree found) := by
  cases found with
  | ok index => exact forall₂_flatMap fun _ => does_levelBindings
  | error error =>
      exact .cons (does_task (follows_failure _))
        (forall₂_flatMap fun _ => does_levelBindings)

/-- Bindings that do their errands make a ledger of them. -/
theorem brings_ledger {bindings : List Binding} {errands : List Errand}
    (does : List.Forall₂ (Binding.Does replies names) bindings errands) :
    (collect bindings (Binding.record names)).Brings replies fun operations outcomes =>
      ∃ ledger, List.Forall₂ Errand.Settles errands ledger ∧
        operations = ledger.flatMap Entry.operations ∧
        outcomes = ledger.map Entry.outcome :=
  brings_collect does

end Does

end SwitchQos
