import SwitchQos.Proofs.Provision.Errands
import SwitchQos.Proofs.Store.Turns

namespace SwitchQos

/-! The courses that the building of a tree may take, node by node, whatever the
store replies. A course of a node has the turns that are taken for it and the
outcomes that are recorded. The nodes take their courses one after the other, once
the groups have been read. -/

/-! ## Nodes -/

inductive TreeNode where
  | group (level : SchedulerLevel) (group : GroupNode)
  | queue (queue : QueueNode)

def SchedulerLevel.nodes (level : SchedulerLevel) : List TreeNode :=
  if level.leaf then level.queues.map .queue else level.groups.map (.group level)

def SchedulerTree.nodes (tree : SchedulerTree) : List TreeNode :=
  tree.levels.flatMap SchedulerLevel.nodes

namespace Scheduler

section Nodes

variable (scheduler : Scheduler) (names : Names) (port : Port) (tree : SchedulerTree)

def applyNode (index : Option GroupIndex) : TreeNode → Exchange (List Outcome)
  | .group level group =>
      match index with
      | some index => scheduler.applyGroup names port tree level index group
      | none =>
          return [.skipped (groupTarget port level group)
            "scheduler groups not discovered"]
  | .queue queue => scheduler.applyQueue names port queue

def discoveryOutcomes : Except ProvisionError GroupIndex → List Outcome
  | .ok _ => []
  | .error error => [.failed (port.name ++ " scheduler groups") error]

theorem applyLevel_eq_nodes (index : Option GroupIndex) (level : SchedulerLevel) :
    scheduler.applyLevel names port tree index level =
      Exchange.collect level.nodes (scheduler.applyNode names port tree index) := by
  unfold applyLevel SchedulerLevel.nodes
  split
  · rw [Exchange.collect_map]
    rfl
  · rw [Exchange.collect_map]
    cases index with
    | some index => rfl
    | none =>
        induction level.groups with
        | nil => rfl
        | cons group rest induction =>
            rw [Exchange.collect, ← induction]
            rfl

theorem applyTree_eq_nodes :
    scheduler.applyTree names port tree =
      (scheduler.readGroups port).run.bind fun found =>
        (Exchange.collect tree.nodes
          (scheduler.applyNode names port tree found.toOption)).bind
          fun outcomes => .done (discoveryOutcomes port found ++ outcomes) := by
  have levels (index : Option GroupIndex) :
      Exchange.collect tree.levels (scheduler.applyLevel names port tree index) =
        Exchange.collect tree.nodes (scheduler.applyNode names port tree index) := by
    rw [SchedulerTree.nodes, Exchange.collect_flatMap]
    exact congrArg _ (funext fun level =>
      scheduler.applyLevel_eq_nodes names port tree index level)
  refine congrArg _ (funext fun found => ?_)
  cases found with
  | ok index => exact (levels (some index)).trans (Exchange.bind_done _).symm
  | error error =>
      simp only [levels]
      rfl

end Nodes

end Scheduler

/-! ## Courses -/

def Outcome.ofReply (target name : String) (reply : ObjectsReply) : Outcome :=
  .ofResult target (reply.mapError fun cause => .transactionFailed name cause.message)

/-- An attempt to set one of some objects. Either it fails before anything is submitted,
or the object is set in a batch of its own and the reply tells the outcome. -/
inductive SettingCourse (objects : Set StoreObject) (target : String) :
    List Turn → Outcome → Prop
  | failed (error : ProvisionError) : SettingCourse objects target []
      (.failed target error)
  | replied {object : StoreObject} (isOne : object ∈ objects) (name : String)
      (reply : ObjectsReply) :
      SettingCourse objects target [.submitted [⟨.set, object⟩] reply]
        (.ofReply target name reply)

/-- What is left out of a node takes no turns; what is declared takes its course. -/
inductive PartCourse {Declared : Type} (course : Declared → List Turn → Outcome → Prop) :
    Option Declared → List Turn → List Outcome → Prop
  | absent : PartCourse course none [] []
  | declared {part : Declared} {turns : List Turn} {outcome : Outcome}
      (takes : course part turns outcome) : PartCourse course (some part) turns [outcome]

def shownId? : ObjectsReply → Option Nat
  | .ok (answer :: _) => (Record.wrap answer >>= fun record => record.id).toOption.join
  | .ok [] | .error _ => none

structure StoreObject.ListsChildren (object : StoreObject) (group : Nat)
    (ids : List Nat) :
    Prop where
  classPath : object.classPath = ObjectClass.schedulerGroup.path
  id : object.get? (ObjectClass.schedulerGroup.pathOf "id") =
    some (Storage.uint64.word group)
  children : object.get? (ObjectClass.schedulerGroup.pathOf "child-list") =
    some (.list (ids.map fun id : Nat => Storage.uint64.write id))
  count : object.get? (ObjectClass.schedulerGroup.pathOf "child_count") =
    some (Storage.uint32.word ids.length)

namespace Scheduler

section Courses

variable (scheduler : Scheduler) (names : Names) (port : Port) (tree : SchedulerTree)

inductive FindsChild (next : SchedulerLevel) (index : GroupIndex) (child : Nat) :
    LookUp Nat → Prop
  | group {id : Nat} (noLeaf : next.leaf = false)
      (found : index.get? next.level child = some id) :
      FindsChild next index child ⟨[], id⟩
  | queue {queue : QueueNode} {template : Authored} {reply : ObjectsReply} {id : Nat}
      (leaf : next.leaf = true) (declared : next.queues[child]? = some queue)
      (addressed : QueueKey.object ⟨port.ifindex, queue.queueType, queue.number⟩
        scheduler.switchId = .ok template)
      (shown : shownId? reply = some id) :
      FindsChild next index child ⟨[.asked template.data reply], id⟩

inductive MissesChild (next : SchedulerLevel) (index : GroupIndex) (child : Nat) :
    List Turn → ProvisionError → Prop
  | group (noLeaf : next.leaf = false) (missing : index.get? next.level child = none) :
      MissesChild next index child [] (shortfall port index next.level child)
  | undeclared (leaf : next.leaf = true) (missing : next.queues[child]? = none)
      (error : ProvisionError) : MissesChild next index child [] error
  | unaddressed {queue : QueueNode} {cause : CodecError} (leaf : next.leaf = true)
      (declared : next.queues[child]? = some queue)
      (unaddressed : QueueKey.object ⟨port.ifindex, queue.queueType, queue.number⟩
        scheduler.switchId = .error cause) :
      MissesChild next index child [] (.codec cause)
  | queue {queue : QueueNode} {template : Authored} {reply : ObjectsReply}
      (leaf : next.leaf = true) (declared : next.queues[child]? = some queue)
      (addressed : QueueKey.object ⟨port.ifindex, queue.queueType, queue.number⟩
        scheduler.switchId = .ok template)
      (hidden : shownId? reply = none) (error : ProvisionError) :
      MissesChild next index child [.asked template.data reply] error

def CanList (group : Nat) (ids : List Nat) : Prop :=
  scheduler.switchId < countOfBits 32 ∧ group < countOfBits 64 ∧
    (∀ id ∈ ids, id < countOfBits 64) ∧ ids.length < countOfBits 32

inductive ChildrenCourse (level : SchedulerLevel) (index : GroupIndex) (group : Nat)
    (target : String) (children : List Nat) : List Turn → Outcome → Prop
  /-- All children have been found, and then they are written in one batch. -/
  | written {next : SchedulerLevel} {lookUps : List (LookUp Nat)} {object : StoreObject}
      (isNext : tree.next? level.level = some next)
      (found : List.Forall₂ (scheduler.FindsChild port next index) children lookUps)
      (lists : object.ListsChildren group (lookUps.map LookUp.value)) (name : String)
      (reply : ObjectsReply) :
      ChildrenCourse level index group target children
        (lookUps.flatMap LookUp.turns ++ [.submitted [⟨.set, object⟩] reply])
        (.ofReply target name reply)
  /-- Some child has not been found, and nothing is written. -/
  | missed {next : SchedulerLevel} {lookUps : List (LookUp Nat)}
      {earlier later : List Nat} {child : Nat} {turns : List Turn}
      {error : ProvisionError} (isNext : tree.next? level.level = some next)
      (split : children = earlier ++ child :: later)
      (found : List.Forall₂ (scheduler.FindsChild port next index) earlier lookUps)
      (misses : scheduler.MissesChild port next index child turns error) :
      ChildrenCourse level index group target children
        (lookUps.flatMap LookUp.turns ++ turns) (.failed target error)
  | unplaced (noNext : tree.next? level.level = none) (error : ProvisionError) :
      ChildrenCourse level index group target children [] (.failed target error)
  /-- All children have been found, but the list cannot be written down. -/
  | unwritable {next : SchedulerLevel} {lookUps : List (LookUp Nat)}
      (isNext : tree.next? level.level = some next)
      (found : List.Forall₂ (scheduler.FindsChild port next index) children lookUps)
      (cannot : ¬scheduler.CanList group (lookUps.map LookUp.value))
      (error : ProvisionError) :
      ChildrenCourse level index group target children
        (lookUps.flatMap LookUp.turns) (.failed target error)

def groupProfiles (group : Nat) (name : String) : Set StoreObject :=
  {object | ∃ profile, names.profiles.get? name = some profile ∧
    object = scheduler.groupProfile group profile}

def queueProfiles (key : QueueKey) (name : String) : Set StoreObject :=
  {object | ∃ profile code, names.profiles.get? name = some profile ∧
    SymbolFamily.queueType.encode key.queueType = .ok code ∧
    object = queueObject scheduler.switchId code key profile}

inductive NodeCourse (index : Option GroupIndex) : TreeNode → List Turn →
    List Outcome → Prop
  | undiscovered {level : SchedulerLevel} {group : GroupNode} (unread : index = none) :
      NodeCourse index (.group level group) []
        [.skipped (groupTarget port level group) "scheduler groups not discovered"]
  | omitted {found : GroupIndex} {level : SchedulerLevel} {group : GroupNode}
      (read : index = some found) (missing : found.get? level.level group.number = none)
      (mayOmit : level.platformMayOmit = true) :
      NodeCourse index (.group level group) []
        [.skipped (groupTarget port level group) "not provided by the platform"]
  | short {found : GroupIndex} {level : SchedulerLevel} {group : GroupNode}
      (read : index = some found) (missing : found.get? level.level group.number = none)
      (required : level.platformMayOmit = false) :
      NodeCourse index (.group level group) []
        [.failed (groupTarget port level group)
          (shortfall port found level.level group.number)]
  | group {found : GroupIndex} {level : SchedulerLevel} {group : GroupNode} {id : Nat}
      {profileTurns childTurns : List Turn} {profileOutcomes childOutcomes : List Outcome}
      (read : index = some found)
      (discovered : found.get? level.level group.number = some id)
      (profile : PartCourse (fun name =>
        SettingCourse (scheduler.groupProfiles names id name)
        (groupTarget port level group ++ " profile " ++ name)) group.profile profileTurns
        profileOutcomes)
      (children : PartCourse (scheduler.ChildrenCourse port tree level found id
        (groupTarget port level group ++ " children")) group.children childTurns
        childOutcomes) :
      NodeCourse index (.group level group) (profileTurns ++ childTurns)
        (profileOutcomes ++ childOutcomes)
  | queue {queue : QueueNode} {turns : List Turn} {outcomes : List Outcome}
      (profile : PartCourse (fun name =>
        let key : QueueKey := ⟨port.ifindex, queue.queueType, queue.number⟩
        SettingCourse (scheduler.queueProfiles names key name)
          (port.name ++ " " ++ key.text ++ " profile " ++ name)) queue.profile
          turns outcomes) :
      NodeCourse index (.queue queue) turns outcomes

end Courses

/-! ## Attempts -/

section Attempts

open Exchange SwitchQos.Task

variable {scheduler : Scheduler} {names : Names} {port : Port} {tree : SchedulerTree}

theorem always_record {Declared : Type} {course : Declared → List Turn → Outcome → Prop}
    {part : Declared} {task : Task Unit} {target : String}
    (always : task.run.Always fun turns result =>
      course part turns (.ofResult target result)) :
    ((task.record target).bind fun outcome => .done [outcome]).Always
      (PartCourse course (some part)) := by
  rw [Task.record, bind_eq_bind, bind_assoc]
  exact Always.map _ (always.mono fun _ _ takes => .declared takes)

theorem always_setting (name : String) (object : StoreObject) :
    (setting name object).run.Always fun turns result => ∃ reply,
      turns = [.submitted [⟨.set, object⟩] reply] ∧
        ∀ target, Outcome.ofResult target result = .ofReply target name reply := by
  intro reply
  cases reply <;> exact ⟨_, rfl, fun _ => rfl⟩

/-! ### Profiles -/

theorem always_setProfile {objects : Set StoreObject} {name target : String}
    {objectClass : ObjectClass} {values : List (String × StoreValue)} {profile : Nat}
    (found : objectClass.spec? "scheduler-profile-id" = some (.scalar .uint64))
    (isOne : objectClass.assemble
      (("scheduler-profile-id", Storage.uint64.word profile) :: values) ∈ objects) :
    (Task.ofCodec ((Authored.assembled objectClass values).set "scheduler-profile-id"
        (.uint profile)) >>= fun authored => setting name authored.data).run.Always
      fun turns result =>
        SettingCourse objects target turns (.ofResult target result) := by
  refine always_bind_ofCodec (fun cause _ => .failed (.codec cause))
    fun authored written => ?_
  rcases (Authored.set_uint_eq_ok_iff found ⟨rfl, rfl⟩).mp written with ⟨-, rfl⟩
  refine (always_setting name _).mono ?_
  rintro _ result ⟨reply, rfl, same⟩
  rw [same]
  exact .replied isOne name reply

theorem always_bindGroupProfile {objects : Set StoreObject} {target : String}
    {group profile : Nat} (isOne : scheduler.groupProfile group profile ∈ objects) :
    (scheduler.bindGroupProfile group profile).run.Always fun turns result =>
      SettingCourse objects target turns (.ofResult target result) := by
  simp only [bindGroupProfile, submit_set_eq]
  cases built : schedulerGroup scheduler.switchId group with
  | error cause => exact SettingCourse.failed (.codec cause)
  | ok data =>
      rcases schedulerGroup_eq_ok_iff.mp built with ⟨-, -, rfl⟩
      exact always_setProfile rfl isOne

theorem always_bindQueueProfile {objects : Set StoreObject} {target : String}
    {key : QueueKey} {profile : Nat}
    (areSome : ∀ code, SymbolFamily.queueType.encode key.queueType = .ok code →
      queueObject scheduler.switchId code key profile ∈ objects) :
    (scheduler.bindQueueProfile key profile).run.Always fun turns result =>
      SettingCourse objects target turns (.ofResult target result) := by
  simp only [bindQueueProfile, submit_set_eq]
  cases built : key.object scheduler.switchId with
  | error cause => exact SettingCourse.failed (.codec cause)
  | ok data =>
      rcases queueObject_eq_ok_iff.mp built with ⟨-, -, -, code, encoded, rfl⟩
      exact always_setProfile rfl (areSome code encoded)

theorem always_profile {objects : Set StoreObject} {target name : String}
    {bind : Nat → Task Unit}
    (binds : ∀ id, names.profiles.get? name = some id →
      (bind id).run.Always fun turns result =>
      SettingCourse objects target turns (.ofResult target result)) :
    (ExceptT.mk (.done (names.profileId name)) >>= bind : Task Unit).run.Always
      fun turns result =>
        SettingCourse objects target turns (.ofResult target result) := by
  refine always_bind_done (fun error _ => .failed error) fun id isId => binds id ?_
  rw [Names.profileId] at isId
  split at isId
  · rename_i known
    cases isId
    exact known
  · cases isId

/-! ### Children -/

theorem always_queueId {key : QueueKey} :
    (scheduler.queueId key).run.Always fun turns result =>
      (∃ cause, key.object scheduler.switchId = .error cause ∧ turns = [] ∧
        result = .error (.codec cause)) ∨
      ∃ template reply, key.object scheduler.switchId = .ok template ∧
        turns = [.asked template.data reply] ∧
        ∀ id, result = .ok (some id) ↔ shownId? reply = some id := by
  refine always_bind_ofCodec (fun cause failed => .inl ⟨cause, failed, rfl, rfl⟩)
    fun template addressed => always_bind (always_query _ _) ?_ ?_
  · rintro _ error ⟨reply, rfl, same⟩
    refine .inr ⟨template, reply, addressed, rfl, fun id => ?_⟩
    cases reply with
    | ok answers => cases same
    | error cause => simp [shownId?]
  · rintro _ answers ⟨reply, rfl, same⟩
    rcases Results.mapError_eq_ok_iff.mp same.symm with rfl
    cases answers with
    | nil => exact .inr ⟨template, _, addressed, rfl, fun id => by simp [shownId?]⟩
    | cons answer others =>
        refine .inr ⟨template, _, addressed, rfl, fun id => ?_⟩
        simp only [shownId?]
        cases Record.wrap answer >>= fun record => record.id with
        | ok id? => simp [Except.mapError, Except.toOption]
        | error cause => simp [Except.mapError, Except.toOption]

theorem always_resolveChild {next : SchedulerLevel} {index : GroupIndex} {child : Nat} :
    (scheduler.resolveChild port next index child).run.Always
      (Finding (scheduler.FindsChild port next index)
        (scheduler.MissesChild port next index) child) := by
  rw [resolveChild]
  split
  · rename_i leaf
    refine always_bind_require (fun missing => .undeclared leaf missing _)
      fun queue declared => ?_
    refine always_bind always_queueId ?_ ?_
    · rintro _ _ (⟨cause, failed, rfl, same⟩ | ⟨template, reply, addressed, rfl, shown⟩)
      · cases same
        exact .unaddressed leaf declared failed
      · refine .queue leaf declared addressed (Option.eq_none_iff_forall_ne_some.mpr ?_) _
        exact fun id isShown => by cases (shown id).mpr isShown
    · rintro _ id? (⟨cause, failed, rfl, same⟩ | ⟨template, reply, addressed, rfl, shown⟩)
      · cases same
      · cases id? with
        | some id => exact FindsChild.queue leaf declared addressed ((shown id).mp rfl)
        | none =>
            refine MissesChild.queue leaf declared addressed
              (Option.eq_none_iff_forall_ne_some.mpr ?_) _
            exact fun id isShown => by cases (shown id).mpr isShown
  · rename_i noLeaf
    cases found : index.get? next.level child with
    | some id => exact FindsChild.group (Bool.eq_false_iff.mpr noLeaf) found
    | none => exact MissesChild.group (Bool.eq_false_iff.mpr noLeaf) found

theorem always_resolveChildren {level : SchedulerLevel} {index : GroupIndex}
    {children : List Nat} :
    (scheduler.resolveChildren port tree level index children).run.Always
      fun turns result =>
      (tree.next? level.level = none ∧ turns = [] ∧ ∃ error, result = .error error) ∨
      ∃ next, tree.next? level.level = some next ∧
        InRow (scheduler.FindsChild port next index)
          (scheduler.MissesChild port next index) children turns result :=
  always_bind_require (fun noNext => .inl ⟨noNext, rfl, _, rfl⟩) fun next isNext =>
    (always_mapM fun _ _ => always_resolveChild).mono fun _ _ row =>
      .inr ⟨next, isNext, row⟩

theorem groupChildren_of_build {group : Nat} {ids : List Nat}
    {result : Except CodecError Authored} (built : (do
      let data ← schedulerGroup scheduler.switchId group
      let data ← data.set "child-list" (.list ids)
      data.set "child_count" (.uint ids.length)) = result) :
    (∃ authored, result = .ok authored ∧
      authored.data = scheduler.groupChildren group ids) ∨
      ¬scheduler.CanList group ids ∧ ∃ cause, result = .error cause := by
  have list : ObjectClass.schedulerGroup.spec? "child-list" = some (.list .uint64) := rfl
  have count : ObjectClass.schedulerGroup.spec? "child_count" =
    some (.scalar .uint32) := rfl
  cases result with
  | ok authored =>
      rcases Results.bind_eq_ok_iff.mp built with ⟨data, isBuilt, written⟩
      rcases schedulerGroup_eq_ok_iff.mp isBuilt with ⟨-, -, rfl⟩
      rcases Results.bind_eq_ok_iff.mp written with ⟨listed, first, last⟩
      rcases Authored.set_eq_ok_iff.mp first with ⟨members, encoded, rfl⟩
      rcases (Authored.set_uint_eq_ok_iff count ⟨rfl, rfl⟩).mp last with ⟨-, rfl⟩
      rw [childList_of_encode encoded]
      exact .inl ⟨_, rfl, rfl⟩
  | error cause =>
      refine .inr ⟨?_, cause, rfl⟩
      rintro ⟨switchFits, groupFits, idsFit, fewEnough⟩
      have encoded := (ObjectClass.encode_eq_ok_iff list).mpr
        (AttrSpec.encode_list_eq_ok rfl rfl idsFit)
      rw [schedulerGroup_eq_ok_iff.mpr ⟨switchFits, groupFits, rfl⟩, Results.ok_bind,
        Authored.set_eq_ok_iff.mpr ⟨_, encoded, rfl⟩, Results.ok_bind,
        (Authored.set_uint_eq_ok_iff count ⟨rfl, rfl⟩).mpr ⟨fewEnough, rfl⟩] at built
      cases built

theorem always_setChildren {group : Nat} {ids : List Nat} :
    (scheduler.setChildren group ids).run.Always fun turns result =>
      (∃ name reply,
        turns = [.submitted [⟨.set, scheduler.groupChildren group ids⟩] reply] ∧
        ∀ target, Outcome.ofResult target result = .ofReply target name reply) ∨
      ¬scheduler.CanList group ids ∧ turns = [] ∧ ∃ error, result = .error error := by
  rw [setChildren]
  split
  · rename_i tooMany
    exact .inr ⟨fun canList => Nat.not_lt.mpr tooMany canList.2.2.2, rfl, _, rfl⟩
  · rw [submit_set_eq]
    refine always_bind_ofCodec (fun cause failed => ?_) fun authored built => ?_
    · rcases groupChildren_of_build failed with ⟨_, impossible, -⟩ | ⟨cannot, -⟩
      · cases impossible
      · exact .inr ⟨cannot, rfl, _, rfl⟩
    · rcases groupChildren_of_build built with ⟨_, same, isList⟩ | ⟨-, _, impossible⟩
      · cases same
        rw [isList]
        refine (always_setting _ _).mono ?_
        rintro _ _ ⟨reply, turns, same⟩
        exact .inl ⟨_, reply, turns, same⟩
      · cases impossible

theorem listsChildren_groupChildren (group : Nat) (ids : List Nat) :
    (scheduler.groupChildren group ids).ListsChildren group ids := by
  have hasAll : ∀ row ∈ [("child_count", Storage.uint32.word ids.length),
      ("child-list", StoreValue.list (ids.map fun id : Nat => Storage.uint64.write id))],
      ObjectClass.schedulerGroup.Has row.1 := by
    simp
    decide
  exact ⟨ObjectClass.classPath_assemble, get?_groupObject (by decide) hasAll,
    get?_groupObject (by decide) hasAll, get?_groupObject (by decide) hasAll⟩

theorem always_bindChildren {level : SchedulerLevel} {index : GroupIndex} {group : Nat}
    {target : String} {children : List Nat} :
    (scheduler.bindChildren port tree level index group children).run.Always
      fun turns result =>
      scheduler.ChildrenCourse port tree level index group target children turns
        (.ofResult target result) := by
  refine always_bind always_resolveChildren ?_ ?_
  · rintro _ error (⟨noNext, rfl, -⟩ | ⟨next, isNext, row⟩)
    · exact .unplaced noNext error
    · cases row with
      | failed lookUps split finds fails => exact .missed isNext split finds fails
  · rintro _ ids (⟨-, -, _, impossible⟩ | ⟨next, isNext, row⟩)
    · cases impossible
    · cases row with
      | found lookUps finds =>
          refine always_setChildren.mono ?_
          rintro _ result (⟨name, reply, rfl, same⟩ | ⟨cannot, rfl, error, rfl⟩)
          · rw [same]
            exact .written isNext finds (listsChildren_groupChildren _ _) name reply
          · rw [List.append_nil]
            exact .unwritable isNext finds cannot error

/-! ### Nodes -/

theorem always_applyProfile {target : String} {group : Nat} {profile : Option String} :
    (scheduler.applyProfile names target group profile).Always
      (PartCourse (fun name => SettingCourse (scheduler.groupProfiles names group name)
        (target ++ " profile " ++ name)) profile) := by
  cases profile with
  | none => exact PartCourse.absent
  | some name =>
      exact always_record (always_profile fun id isId =>
        always_bindGroupProfile ⟨id, isId, rfl⟩)

theorem always_applyChildren {level : SchedulerLevel} {index : GroupIndex}
    {target : String} {group : Nat} {children : Option (List Nat)} :
    (scheduler.applyChildren port tree level index target group children).Always
      (PartCourse (scheduler.ChildrenCourse port tree level index group
        (target ++ " children")) children) := by
  cases children with
  | none => exact PartCourse.absent
  | some children => exact always_record always_bindChildren

theorem always_applyQueue {queue : QueueNode} :
    (scheduler.applyQueue names port queue).Always (PartCourse (fun name =>
      let key : QueueKey := ⟨port.ifindex, queue.queueType, queue.number⟩
      SettingCourse (scheduler.queueProfiles names key name)
        (port.name ++ " " ++ key.text ++ " profile " ++ name)) queue.profile) := by
  rw [applyQueue]
  cases queue.profile with
  | none => exact PartCourse.absent
  | some name =>
      exact always_record (always_profile fun id isId =>
        always_bindQueueProfile fun code encoded => ⟨id, code, isId, encoded, rfl⟩)

/-- However the store replies, each node takes one of its courses. -/
theorem always_applyNode {index : Option GroupIndex} {node : TreeNode} :
    (scheduler.applyNode names port tree index node).Always
      (scheduler.NodeCourse names port tree index node) := by
  cases node with
  | queue queue => exact always_applyQueue.mono fun _ _ course => .queue course
  | group level group =>
      cases index with
      | none => exact NodeCourse.undiscovered rfl
      | some index =>
          rw [applyNode, applyGroup]
          cases discovered : index.get? level.level group.number with
          | some id =>
              refine always_applyProfile.bind
                fun profileTurns profileOutcomes profile => ?_
              exact Always.map _ (always_applyChildren.mono
                  fun childTurns childOutcomes children =>
                .group rfl discovered profile children)
          | none =>
              cases mayOmit : level.platformMayOmit with
              | true => exact NodeCourse.omitted rfl discovered mayOmit
              | false => exact NodeCourse.short rfl discovered mayOmit

end Attempts

/-! ## The tree -/

section Tree

open Exchange SwitchQos.Task

variable {State : Type} {scheduler : Scheduler} {names : Names} {port : Port}
  {tree : SchedulerTree}

theorem always_readGroups :
    (scheduler.readGroups port).run.Always fun turns _ =>
      Turn.submissions turns = [] := by
  have asked : (scheduler.portGroups port.ifindex).run.Always
      fun turns _ => Turn.submissions turns = [] := by
    refine always_bind_ofCodec (fun _ _ => rfl) fun template _ =>
      (always_query _ _).mono ?_
    rintro _ _ ⟨reply, rfl, -⟩
    rfl
  refine always_bind asked (fun _ _ silent => silent) fun turns groups silent =>
    always_bind_done (fun _ _ => ?_) fun _ _ => ?_
  · rwa [List.append_nil]
  · change Turn.submissions (turns ++ []) = []
    rwa [List.append_nil]

/-- However a store replies, the groups are read, and then the nodes take their courses in
the order in which they are declared. -/
theorem applyTree_takes_courses (scheduler : Scheduler) (names : Names) (port : Port)
    (tree : SchedulerTree) (responder : Responder State) (before : State) :
    ∃ found middle, ∃ episodes : List (Episode Outcome), ∃ after,
      (scheduler.readGroups port).run.Ends responder before found middle ∧
      (scheduler.applyTree names port tree).Ends responder before
        (discoveryOutcomes port found ++ episodes.flatMap Episode.results) after ∧
      (scheduler.applyTree names port tree).turns responder before =
        (scheduler.readGroups port).run.turns responder before ++
          episodes.flatMap Episode.turns ∧
      Turn.submissions ((scheduler.readGroups port).run.turns responder before) = [] ∧
      List.Forall₂ (fun node episode =>
        scheduler.NodeCourse names port tree found.toOption node
        episode.turns episode.results) tree.nodes episodes := by
  rcases always_readGroups.exists_ends responder before with ⟨found, middle, read, silent⟩
  have courses := always_collect fun node (_ : node ∈ tree.nodes) =>
    @always_applyNode scheduler names port tree found.toOption node
  rcases courses.exists_ends responder middle with
    ⟨_, after, applied, episodes, related, turns, rfl⟩
  refine ⟨found, middle, episodes, after, read, ?_, ?_, silent, related⟩
  · rw [applyTree_eq_nodes]
    exact read.bind (applied.map _)
  · rw [applyTree_eq_nodes, turns_bind read, turns_bind applied, turns]
    exact congrArg _ (List.append_nil _)

end Tree

end Scheduler

end SwitchQos
