import SwitchQos.Proofs.Provision.Bindings
import SwitchQos.Proofs.Provision.TreeSettings
import SwitchQos.Proofs.Store.Parallel

namespace SwitchQos

/-! All that provisioning of a port may ask for and set. Queues and the port's own objects
are addressed by the port, groups by ids alone, so the ids that may come up belong to the
footprint. Of answers only levels and ids are looked at. With two sets of names that know
the same profiles under different ids, a port is provisioned in parallel. -/

def PortNode.bindings (node : PortNode) : Direction → MapBindings
  | .ingress => node.ingress
  | .egress => node.egress

def SchedulerTree.profiles (tree : SchedulerTree) : List String :=
  tree.levels.flatMap fun level =>
    level.groups.filterMap (·.profile) ++ level.queues.filterMap (·.profile)

/-! ## Answers -/

/-- An answer of the same class, with the same level and the same id. -/
def StoreObject.ShowsSame (left right : StoreObject) : Prop :=
  right.classPath = left.classPath ∧
    ∀ objectClass : ObjectClass, left.classPath = objectClass.path →
      ∀ attr ∈ ["level", "id"],
        right.lookup (objectClass.pathOf attr) = left.lookup (objectClass.pathOf attr)

theorem StoreObject.showsSame_self (answer : StoreObject) : answer.ShowsSame answer :=
  ⟨rfl, fun _ _ _ _ => rfl⟩

section Answers

variable {left right : StoreObject}

/-- Either is no object of a known class, or both read the same. -/
theorem StoreObject.ShowsSame.wrap (same : left.ShowsSame right) :
    (∃ cause, Record.wrap left = .error cause ∧ Record.wrap right = .error cause) ∨
      ∃ objectClass, Record.wrap left = .ok (.view objectClass left) ∧
        Record.wrap right = .ok (.view objectClass right) ∧
        ∀ attr ∈ ["level", "id"],
          objectClass.decode attr right = objectClass.decode attr left := by
  rcases same with ⟨samePath, sameLookups⟩
  simp only [Record.wrap, samePath]
  cases found : ObjectClass.ofPath left.classPath with
  | error cause => exact .inl ⟨cause, rfl, rfl⟩
  | ok objectClass =>
      have isOf := (ObjectClass.ofPath_eq_ok_iff.mp found).symm
      exact .inr ⟨objectClass, rfl, rfl, fun attr isRead =>
        ObjectClass.decode_congr (sameLookups objectClass isOf attr isRead)⟩

theorem StoreObject.ShowsSame.groupPosition (same : left.ShowsSame right)
    (name : String) :
    Scheduler.groupPosition name right = Scheduler.groupPosition name left := by
  rcases same.wrap with ⟨cause, isLeft, isRight⟩ | ⟨objectClass, isLeft, isRight, decoded⟩
  · simp only [Scheduler.groupPosition, isLeft, isRight]
  · simp only [Scheduler.groupPosition, isLeft, isRight, Except.mapError, Results.ok_bind,
      Record.attr, Record.id, Record.objectClass, Record.data, ObjectClass.decodeNat,
      decoded "level" (by simp), decoded "id" (by simp)]

theorem StoreObject.ShowsSame.id (same : left.ShowsSame right) :
    (Record.wrap right >>= fun record => record.id) =
      Record.wrap left >>= fun record => record.id := by
  rcases same.wrap with ⟨cause, isLeft, isRight⟩ | ⟨objectClass, isLeft, isRight, decoded⟩
  · rw [isLeft, isRight]
  · simp only [isLeft, isRight, Results.ok_bind, Record.id,
      Record.objectClass, Record.data, ObjectClass.decodeNat, decoded "id" (by simp)]

end Answers

/-! ## The footprint -/

structure Footprint where
  switchId : Nat
  port : Nat
  /-- The ids of groups that may be set. -/
  groups : Set Nat
  /-- The ids that may be bound for a map type. -/
  maps : Direction → MapType → Set Nat
  /-- Ids of profiles that stand for each other. -/
  Renames : Nat → Nat → Prop
  fits : ∀ {left right}, Renames left right →
    left = right ∨ left < countOfBits 64 ∧ right < countOfBits 64

namespace Footprint

section Objects

variable (footprint : Footprint)

def groupProfile (id profile : Nat) : StoreObject :=
  groupObject footprint.switchId id
    [("scheduler-profile-id", Storage.uint64.word profile)]

def groupChildren (id count : Nat) (members : StoreValue) : StoreObject :=
  groupObject footprint.switchId id
    [("child_count", Storage.uint32.word count), ("child-list", members)]

def portMap (direction : Direction) (mapType : MapType) (id : Nat) : StoreObject :=
  direction.objectClass.assemble
    [(mapType.name, Storage.uint64.word id),
      ("port-id", Storage.uint32.word footprint.port),
     ("switch-id", Storage.uint32.word footprint.switchId)]

end Objects

inductive Asks (footprint : Footprint) : StoreObject → Prop
  | groups {template : Authored}
      (built : portSchedulerGroups footprint.switchId footprint.port = .ok template) :
      Asks footprint template.data
  | queue {key : QueueKey} {template : Authored} (onPort : key.port = footprint.port)
      (built : key.object footprint.switchId = .ok template) :
      Asks footprint template.data

/-- A pair of objects that may be set. They differ at most in the id of a profile. -/
inductive Sets (footprint : Footprint) : StoreObject → StoreObject → Prop
  | groupProfile {id left right : Nat} (isGroup : id ∈ footprint.groups)
      (renamed : footprint.Renames left right) :
      Sets footprint (footprint.groupProfile id left) (footprint.groupProfile id right)
  | groupChildren {id count : Nat} {members : StoreValue}
      (isGroup : id ∈ footprint.groups) :
      Sets footprint (footprint.groupChildren id count members)
        (footprint.groupChildren id count members)
  | queueProfile {key : QueueKey} {code left right : Nat}
      (onPort : key.port = footprint.port) (portFits : footprint.port < countOfBits 32)
      (renamed : footprint.Renames left right) :
      Sets footprint (queueObject footprint.switchId code key left)
        (queueObject footprint.switchId code key right)
  | portMap {direction : Direction} {mapType : MapType} {id : Nat}
      (bound : id ∈ footprint.maps direction mapType)
      (has : direction.objectClass.Has mapType.name)
      (portFits : footprint.port < countOfBits 32) :
      Sets footprint (footprint.portMap direction mapType id)
        (footprint.portMap direction mapType id)

theorem Sets.same {footprint : Footprint} {object other : StoreObject}
    (sets : footprint.Sets object other)
    (exact : ∀ left right, footprint.Renames left right → left = right) :
    other = object := by
  cases sets with
  | groupProfile _ renamed | queueProfile _ _ renamed => rw [exact _ _ renamed]
  | groupChildren | portMap => rfl

def conduct (footprint : Footprint) : Conduct where
  Asks := footprint.Asks
  Alike := StoreObject.ShowsSame
  alike_self := StoreObject.showsSame_self
  Sets := footprint.Sets

/-! ## Tasks -/

section Tasks

open SwitchQos.Task

variable {footprint : Footprint} {scheduler : Scheduler} {port : Port}

theorem parallel_setProfile {name : String} {objectClass : ObjectClass}
    {values : List (String × StoreValue)} {left right : Nat}
    (found : objectClass.spec? "scheduler-profile-id" = some (.scalar .uint64))
    (renamed : footprint.Renames left right)
    (paired : footprint.Sets
      (objectClass.assemble
        (("scheduler-profile-id", Storage.uint64.word left) :: values))
      (objectClass.assemble
        (("scheduler-profile-id", Storage.uint64.word right) :: values))) :
    (Task.ofCodec ((Authored.assembled objectClass values).set "scheduler-profile-id"
        (.uint left)) >>= fun authored => setting name authored.data).run.Parallel
      footprint.conduct
      (Task.ofCodec ((Authored.assembled objectClass values).set "scheduler-profile-id"
        (.uint right)) >>= fun authored => setting name authored.data).run := by
  rcases footprint.fits renamed with rfl | ⟨leftFits, rightFits⟩
  · refine parallel_ofCodec_bind fun authored written => ?_
    rcases (Authored.set_uint_eq_ok_iff found ⟨rfl, rfl⟩).mp written with ⟨-, rfl⟩
    exact parallel_transact_bind paired (parallel_done _)
  · rw [(Authored.set_uint_eq_ok_iff found ⟨rfl, rfl⟩).mpr ⟨leftFits, rfl⟩,
      (Authored.set_uint_eq_ok_iff found ⟨rfl, rfl⟩).mpr ⟨rightFits, rfl⟩]
    exact parallel_transact_bind paired (parallel_done _)

theorem parallel_bindGroupProfile {id left right : Nat}
    (onSwitch : footprint.switchId = scheduler.switchId) (isGroup : id ∈ footprint.groups)
    (renamed : footprint.Renames left right) :
    (scheduler.bindGroupProfile id left).run.Parallel footprint.conduct
      (scheduler.bindGroupProfile id right).run := by
  have paired := Sets.groupProfile isGroup renamed
  rw [groupProfile, groupProfile, groupObject, groupObject, onSwitch] at paired
  simp only [Scheduler.bindGroupProfile, submit_set_eq]
  cases built : schedulerGroup scheduler.switchId id with
  | error cause => exact .done _
  | ok group =>
      rcases schedulerGroup_eq_ok_iff.mp built with ⟨-, -, rfl⟩
      exact parallel_setProfile rfl renamed paired

theorem parallel_bindQueueProfile {key : QueueKey} {left right : Nat}
    (onSwitch : footprint.switchId = scheduler.switchId)
    (onPort : key.port = footprint.port) (renamed : footprint.Renames left right) :
    (scheduler.bindQueueProfile key left).run.Parallel footprint.conduct
      (scheduler.bindQueueProfile key right).run := by
  simp only [Scheduler.bindQueueProfile, submit_set_eq]
  cases built : key.object scheduler.switchId with
  | error cause => exact .done _
  | ok queue =>
      rcases queueObject_eq_ok_iff.mp built with ⟨-, portFits, -, code, -, rfl⟩
      have paired := @Sets.queueProfile footprint key code left right onPort
        (onPort ▸ portFits) renamed
      rw [queueObject, queueObject, onSwitch] at paired
      exact parallel_setProfile rfl renamed paired

theorem parallel_setChildren {id : Nat} {children : List Nat}
    (onSwitch : footprint.switchId = scheduler.switchId)
    (isGroup : id ∈ footprint.groups) :
    (scheduler.setChildren id children).run.Parallel footprint.conduct
      (scheduler.setChildren id children).run := by
  have count : ObjectClass.schedulerGroup.spec? "child_count" =
    some (.scalar .uint32) := rfl
  rw [Scheduler.setChildren]
  split
  · exact .done _
  · rw [submit_set_eq]
    refine parallel_ofCodec_bind fun authored built => ?_
    rcases Results.bind_eq_ok_iff.mp built with ⟨group, isBuilt, written⟩
    rcases schedulerGroup_eq_ok_iff.mp isBuilt with ⟨-, -, rfl⟩
    rcases Results.bind_eq_ok_iff.mp written with ⟨listed, first, last⟩
    rcases Authored.set_eq_ok_iff.mp first with ⟨members, -, rfl⟩
    rcases (Authored.set_uint_eq_ok_iff count ⟨rfl, rfl⟩).mp last with ⟨-, rfl⟩
    have paired := @Sets.groupChildren footprint id children.length members isGroup
    rw [groupChildren, groupObject, onSwitch] at paired
    exact parallel_transact_bind paired (parallel_done _)

theorem parallel_queueId {key : QueueKey}
    (onSwitch : footprint.switchId = scheduler.switchId)
    (onPort : key.port = footprint.port) :
    (scheduler.queueId key).run.Parallel footprint.conduct
      (scheduler.queueId key).run := by
  refine parallel_ofCodec_bind fun template built =>
    parallel_query_bind ?_ fun _ _ alike => ?_
  · exact .queue onPort (onSwitch ▸ built)
  · cases alike with
    | nil => exact parallel_done _
    | cons first _ =>
        simp only [first.id]
        exact parallel_done _

theorem parallel_readGroups (onSwitch : footprint.switchId = scheduler.switchId)
    (onPort : footprint.port = port.ifindex) :
    (scheduler.readGroups port).run.Parallel footprint.conduct
      (scheduler.readGroups port).run := by
  rw [Scheduler.readGroups, Scheduler.portGroups, bind_assoc]
  refine parallel_ofCodec_bind fun template built =>
    parallel_query_bind ?_ fun _ _ alike => ?_
  · exact .groups (by rw [onSwitch, onPort]; exact built)
  · have positions := Results.mapM_congr alike fun _ _ same =>
      StoreObject.ShowsSame.groupPosition same port.name
    rw [positions]
    exact parallel_bind (parallel_done _) fun _ => parallel_done _

theorem parallel_resolveChildren {tree : SchedulerTree} {level : SchedulerLevel}
    {index : GroupIndex} {children : List Nat}
    (onSwitch : footprint.switchId = scheduler.switchId)
    (onPort : footprint.port = port.ifindex) :
    (scheduler.resolveChildren port tree level index children).run.Parallel
      footprint.conduct
      (scheduler.resolveChildren port tree level index children).run := by
  refine parallel_bind (parallel_done _) fun next => parallel_mapM fun child _ => ?_
  rw [Scheduler.resolveChild]
  split
  · exact parallel_bind (parallel_done _) fun queue =>
      parallel_bind (parallel_queueId onSwitch onPort.symm) fun _ => parallel_done _
  · exact parallel_done _

end Tasks

/-! ## Bindings -/

section Bindings

open Exchange SwitchQos.Task

variable {footprint : Footprint} {scheduler : Scheduler} {port : Port}
  {names leftNames rightNames : Names}

theorem parallel_profileBindings {target : String} {bind : Nat → Task Unit}
    {profile : Option String}
    (each : ∀ left right, footprint.Renames left right →
      (bind left).run.Parallel footprint.conduct (bind right).run)
    (renamed : ∀ name ∈ profile,
      Option.Rel footprint.Renames (leftNames.profiles.get? name)
      (rightNames.profiles.get? name)) :
    ∀ binding ∈ Scheduler.profileBindings target bind profile,
      (binding.record leftNames).Parallel footprint.conduct
        (binding.record rightNames) := by
  intro binding member
  cases profile with
  | none => cases member
  | some name =>
      cases List.mem_singleton.mp member
      refine (parallel_record ?_).bind fun _ => .done _
      have known := renamed name rfl
      simp only [Names.profileId]
      revert known
      generalize leftNames.profiles.get? name = left
      generalize rightNames.profiles.get? name = right
      rintro (related | -)
      · exact each _ _ related
      · exact .done _

theorem parallel_task {target : String} {task : Task Unit}
    (parallel : task.run.Parallel footprint.conduct task.run) :
    (Binding.record leftNames ⟨target, .task task⟩).Parallel footprint.conduct
      (Binding.record rightNames ⟨target, .task task⟩) :=
  (parallel_record parallel).bind fun _ => .done _

theorem parallel_mapBindings {node : PortNode} (onPort : footprint.port = port.ifindex)
    (maps : ∀ direction mapType tag id, (mapType, tag) ∈ node.bindings direction →
      names.maps.get? tag = some id → id ∈ footprint.maps direction mapType) :
    ∀ binding ∈ mapBindings footprint.switchId names port node,
      (binding.record leftNames).Parallel footprint.conduct
        (binding.record rightNames) := by
  have each (direction : Direction) (row : MapType × String)
      (declared : row ∈ node.bindings direction) :
      (Binding.record leftNames (mapBinding footprint.switchId names port direction row.1
        row.2)).Parallel footprint.conduct
        (Binding.record rightNames
          (mapBinding footprint.switchId names port direction row.1 row.2)) := by
    rw [mapBinding]
    split
    · apply parallel_task
      rw [bindMap, Names.mapId]
      cases named : names.maps.get? row.2 with
      | none => exact .done _
      | some id =>
          refine parallel_ofCodec_bind fun object built => ?_
          rcases Results.bind_eq_ok_iff.mp built with ⟨data, started, written⟩
          rcases portObject_eq_ok_iff.mp started with ⟨-, portFits, rfl⟩
          rcases Authored.set_eq_ok_iff.mp written with ⟨stored, encoded, rfl⟩
          have has := ObjectClass.has_of_encode encoded
          have found := Direction.spec?_of_has has
          rw [ObjectClass.encode_eq_ok_iff found,
            AttrSpec.encode_uint_eq_ok_iff ⟨rfl, rfl⟩] at encoded
          rw [encoded.2]
          have paired := Sets.portMap (maps direction row.1 row.2 id declared named) has
            (onPort ▸ portFits)
          rw [portMap, onPort] at paired
          exact parallel_transact_bind paired (parallel_done _)
    · exact .done _
  intro binding member
  rcases List.mem_append.mp member with ingress | egress
  · rcases List.mem_map.mp ingress with ⟨row, declared, rfl⟩
    exact each .ingress row declared
  · rcases List.mem_map.mp egress with ⟨row, declared, rfl⟩
    exact each .egress row declared

theorem parallel_groupBindings {tree : SchedulerTree} {level : SchedulerLevel}
    {index : GroupIndex} {group : GroupNode}
    (onSwitch : footprint.switchId = scheduler.switchId)
    (onPort : footprint.port = port.ifindex)
    (listed : ∀ level ordinal id, index.get? level ordinal = some id →
      id ∈ footprint.groups)
    (renamed : ∀ name ∈ group.profile, Option.Rel footprint.Renames
      (leftNames.profiles.get? name) (rightNames.profiles.get? name)) :
    ∀ binding ∈ scheduler.groupBindings port tree level index group,
      (binding.record leftNames).Parallel footprint.conduct
        (binding.record rightNames) := by
  intro binding member
  rw [Scheduler.groupBindings] at member
  split at member
  · rename_i id isListed
    have isGroup := listed _ _ _ isListed
    rcases List.mem_append.mp member with isProfile | isChildren
    · exact parallel_profileBindings
        (fun _ _ => parallel_bindGroupProfile onSwitch isGroup) renamed binding isProfile
    · cases declared : group.children with
      | none =>
          rw [declared] at isChildren
          cases isChildren
      | some children =>
          rw [declared] at isChildren
          cases List.mem_singleton.mp isChildren
          exact parallel_task (parallel_bind
              (parallel_resolveChildren onSwitch onPort) fun ids =>
            parallel_setChildren onSwitch isGroup)
  · split at member
    · cases List.mem_singleton.mp member
      exact .done _
    · cases List.mem_singleton.mp member
      exact parallel_task (parallel_done _)

theorem parallel_levelBindings {tree : SchedulerTree} {level : SchedulerLevel}
    {index : Option GroupIndex} (onSwitch : footprint.switchId = scheduler.switchId)
    (onPort : footprint.port = port.ifindex)
    (listed : ∀ groups ∈ index, ∀ level ordinal id, groups.get? level ordinal = some id →
      id ∈ footprint.groups)
    (renamed : ∀ name ∈
        level.groups.filterMap (·.profile) ++ level.queues.filterMap (·.profile),
      Option.Rel footprint.Renames (leftNames.profiles.get? name)
        (rightNames.profiles.get? name)) :
    ∀ binding ∈ scheduler.levelBindings port tree index level,
      (binding.record leftNames).Parallel footprint.conduct
        (binding.record rightNames) := by
  intro binding member
  unfold Scheduler.levelBindings at member
  split at member
  · rcases List.mem_flatMap.mp member with ⟨queue, isQueue, isBinding⟩
    refine parallel_profileBindings
      (fun _ _ => parallel_bindQueueProfile onSwitch onPort.symm)
      (fun name isProfile => ?_) binding isBinding
    exact renamed name (List.mem_append_right _
      (List.mem_filterMap.mpr ⟨queue, isQueue, isProfile⟩))
  · cases index with
    | some groups =>
        rcases List.mem_flatMap.mp member with ⟨group, isGroup, isBinding⟩
        refine parallel_groupBindings onSwitch onPort (listed groups rfl)
          (fun name isProfile => ?_) binding isBinding
        exact renamed name
          (List.mem_append_left _ (List.mem_filterMap.mpr ⟨group, isGroup, isProfile⟩))
    | none =>
        rcases List.mem_map.mp member with ⟨group, -, rfl⟩
        exact .done _

theorem parallel_treeBindings {tree : SchedulerTree}
    {found : Except ProvisionError GroupIndex}
    (onSwitch : footprint.switchId = scheduler.switchId)
    (onPort : footprint.port = port.ifindex)
    (listed : ∀ index, found = .ok index → ∀ level ordinal id,
      index.get? level ordinal = some id → id ∈ footprint.groups)
    (renamed : ∀ name ∈ tree.profiles, Option.Rel footprint.Renames
      (leftNames.profiles.get? name) (rightNames.profiles.get? name)) :
    (collect (scheduler.treeBindings port tree found) (Binding.record leftNames)).Parallel
      footprint.conduct
      (collect (scheduler.treeBindings port tree found) (Binding.record rightNames)) := by
  have levels (index : Option GroupIndex)
      (listed : ∀ groups ∈ index, ∀ level ordinal id,
        groups.get? level ordinal = some id →
        id ∈ footprint.groups) :
      ∀ binding ∈ tree.levels.flatMap (scheduler.levelBindings port tree index),
        (binding.record leftNames).Parallel footprint.conduct
          (binding.record rightNames) := by
    intro binding member
    rcases List.mem_flatMap.mp member with ⟨level, isLevel, isBinding⟩
    refine parallel_levelBindings onSwitch onPort listed
      (fun name isProfile => ?_) binding isBinding
    exact renamed name (List.mem_flatMap.mpr ⟨level, isLevel, isProfile⟩)
  apply parallel_collect
  cases found with
  | ok index =>
      refine levels (some index) fun groups isIndex => ?_
      cases isIndex
      exact listed index rfl
  | error error =>
      intro binding member
      rcases List.mem_cons.mp member with rfl | isLevel
      · exact parallel_task (parallel_done _)
      · exact levels none (fun groups isIndex => by cases isIndex) binding isLevel

end Bindings

/-! ## Ports -/

def ofPort (switchId : Nat) (names : Names) (node : PortNode) (port : Port)
    (groups : Set Nat) :
    Footprint where
  switchId := switchId
  port := port.ifindex
  groups := groups
  maps direction mapType :=
    {id | ∃ tag, (mapType, tag) ∈ node.bindings direction ∧ names.maps.get? tag = some id}
  Renames := Eq
  fits := .inl

section Ports

variable {names : Names} {node : PortNode} {port : Port} {groups : Set Nat}

theorem parallel_bindPortMaps {switchId : Nat} :
    (bindPortMaps switchId names port node).Parallel
      (ofPort switchId names node port groups).conduct
        (bindPortMaps switchId names port node) := by
  rw [bindPortMaps_eq]
  have each :=
    @parallel_mapBindings (ofPort switchId names node port groups) port names names
    names node rfl fun direction mapType tag id declared named => ⟨tag, declared, named⟩
  exact Exchange.parallel_collect each

theorem renames_self (profiles : Directory String Nat) (name : String) :
    Option.Rel Eq (profiles.get? name) (profiles.get? name) := by
  cases profiles.get? name with
  | none => exact .none
  | some id => exact .some rfl

theorem parallel_applyTree (scheduler : Scheduler) (tree : SchedulerTree) :
    (scheduler.applyTree names port tree).Parallel
      (ofPort scheduler.switchId names node port Set.univ).conduct
      (scheduler.applyTree names port tree) := by
  rw [Scheduler.applyTree_eq]
  refine (parallel_readGroups rfl rfl).bind fun found =>
    parallel_treeBindings rfl rfl (fun _ _ _ _ _ _ => trivial) fun name _ => ?_
  exact renames_self names.profiles name

/-- Provisioning of a port neither lists ports nor stalls, and stays within the footprint
of the port. -/
theorem parallel_initPort (provisioner : Provisioner) (names : Names) (node : PortNode)
    (port : Port) :
    (provisioner.initPort names node port).Parallel
      (ofPort provisioner.switchId names node port Set.univ).conduct
      (provisioner.initPort names node port) := by
  refine parallel_bindPortMaps.bind fun maps =>
    Exchange.Parallel.bind ?_ fun tree => .done _
  cases node.tree with
  | none => exact .done []
  | some tree => exact parallel_applyTree provisioner.scheduler tree

end Ports

end Footprint

end SwitchQos
