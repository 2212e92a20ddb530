import SwitchQos.Config.Validation
import SwitchQos.Proofs.Provision.GroupDiscovery
import SwitchQos.Proofs.Provision.QueueLookup
import SwitchQos.Provision.TreeBinding

namespace SwitchQos

/-! What a scheduler tree asks for on a port, in terms of the objects that are stored
for the port. No two nodes of a tree that fits ask for different things in one place. -/

/-! ## Bindings -/

namespace SchedulerTree

section Bindings

variable (tree : SchedulerTree) (names : Names) (contents : Contents) (port : Nat)

/-- The id of a child of a group on the level: that of the queue at the position in the
queue list of the next level if that is a leaf, else of the group with the ordinal. -/
def childId? (level child : Nat) : Option Nat :=
  match tree.next? level with
  | none => none
  | some next =>
      if next.leaf then
        (next.queues[child]?).bind fun queue =>
          contents.queueId? ⟨port, queue.queueType, queue.number⟩
      else (contents.groupIds port next.level)[child]?

def groupAttr? (level : Nat) (group : GroupNode) (attr : String) : Option AttrValue :=
  if attr = "scheduler-profile-id" then
    (group.profile.bind names.profiles.get?).map .uint
  else if attr = "child-list" then
    (group.children.bind fun children =>
      children.mapM (tree.childId? contents port level)).map .list
  else if attr = "child_count" then
    group.children.map fun children => .uint children.length
  else none

/-- The tree asks that a stored object has the value under the path. -/
inductive Asks (stored : StoreObject) (path : String) (value : StoreValue) : Prop
  | group {level : SchedulerLevel} {group : GroupNode} {id : Nat} {attr : String}
      {asked : AttrValue} (isLevel : level ∈ tree.levels) (isNode : group ∈ level.groups)
      (found : (contents.groupIds port level.level)[group.number]? = some id)
      (isGroup : stored.IsGroup port level.level id)
      (asks : tree.groupAttr? names contents port level.level group attr = some asked)
      (encoded : ObjectClass.schedulerGroup.encode attr asked = .ok value)
      (located : path = ObjectClass.schedulerGroup.pathOf attr)
  | queue {level : SchedulerLevel} {queue : QueueNode} {profile : Nat}
      (isLevel : level ∈ tree.levels) (isNode : queue ∈ level.queues)
      (isQueue : stored.IsQueue ⟨port, queue.queueType, queue.number⟩)
      (asks : queue.profile.bind names.profiles.get? = some profile)
      (encoded : ObjectClass.queue.encode "scheduler-profile-id"
        (.uint profile) = .ok value)
      (located : path = ObjectClass.queue.pathOf "scheduler-profile-id")

/-- What the tree declares is well-formed and different, what it names is known, and
what it addresses is stored for the port. -/
structure Fits : Prop where
  wellFormed : ∀ level ∈ tree.levels, level.fault? = none
  levels : (tree.levels.map (·.level)).Nodup
  groups : ∀ level ∈ tree.levels, (level.groups.map (·.number)).Nodup
  queues : ((tree.levels.flatMap (·.queues)).map fun queue =>
    (queue.queueType, queue.number)).Nodup
  groupProfiles : ∀ level ∈ tree.levels, ∀ group ∈ level.groups,
    ∀ profile ∈ group.profile,
    (names.profiles.get? profile).isSome
  queueProfiles : ∀ level ∈ tree.levels, ∀ queue ∈ level.queues,
    ∀ profile ∈ queue.profile,
    (names.profiles.get? profile).isSome
  ordinals : ∀ level ∈ tree.levels, ∀ group ∈ level.groups,
    group.number < (contents.groupIds port level.level).length
  stored : ∀ level ∈ tree.levels, ∀ queue ∈ level.queues, ∃ stored ∈ contents.objects,
    stored.IsQueue ⟨port, queue.queueType, queue.number⟩ ∧
      (ObjectClass.queue.number? "id" stored).isSome
  children : ∀ level ∈ tree.levels, ∀ group ∈ level.groups, ∀ children ∈ group.children,
    children.length < countOfBits 32 ∧
      ∀ child ∈ children, ∃ next ∈ tree.next? level.level,
        child < if next.leaf then next.queues.length
          else (contents.groupIds port next.level).length

end Bindings

end SchedulerTree

structure Memory.Serves (memory : Memory) (switchId port : Nat) : Prop where
  unruled : memory.rules = []
  available : memory.unavailable = 0
  plain : ∀ stored ∈ memory.contents.objects, stored.IsPlain
  distinct : Contents.Distinct memory.contents.objects
  groups : memory.contents.GroupsReadable switchId port
  queues : ∀ stored ∈ memory.contents.objects, stored.classPath = ObjectClass.queue.path →
    ObjectClass.queue.number? "port-id" stored = some port →
    ObjectClass.queue.number? "switch-id" stored = some switchId

structure SchedulerTree.Buildable (tree : SchedulerTree) (names : Names) (memory : Memory)
    (switchId port : Nat) : Prop where
  switchFits : switchId < countOfBits 32
  portFits : port < countOfBits 32
  known : ∀ profile id, names.profiles.get? profile = some id → id < countOfBits 64
  serves : memory.Serves switchId port
  fits : tree.Fits names memory.contents port
  /-- A child list, even one without children, needs a level that it is about. -/
  continues : ∀ level ∈ tree.levels, ∀ group ∈ level.groups, group.children.isSome →
    (tree.next? level.level).isSome

namespace SchedulerTree

variable {tree : SchedulerTree} {names : Names} {contents : Contents} {port : Nat}
  {stored : StoreObject} {path : String} {value other : StoreValue}

/-! ## Uniqueness -/

theorem Fits.level_unique (fits : tree.Fits names contents port)
    {left right : SchedulerLevel} (isLeft : left ∈ tree.levels)
    (isRight : right ∈ tree.levels) (same : left.level = right.level) : left = right :=
  List.inj_on_of_nodup_map fits.levels isLeft isRight same

theorem Fits.group_unique (fits : tree.Fits names contents port)
    (distinct : Contents.Distinct contents.objects) {level : SchedulerLevel}
    (isLevel : level ∈ tree.levels) {left right : GroupNode}
    (isLeft : left ∈ level.groups) (isRight : right ∈ level.groups) {id : Nat}
    (leftFound : (contents.groupIds port level.level)[left.number]? = some id)
    (rightFound : (contents.groupIds port level.level)[right.number]? = some id) :
    left = right := by
  have apart : (contents.groupIds port level.level).Nodup :=
    (Contents.pairwise_groupIds distinct).nodup
  have sameNumber :=
    (List.getElem?_inj (fits.ordinals level isLevel left isLeft) apart).mp
    (leftFound.trans rightFound.symm)
  exact List.inj_on_of_nodup_map (fits.groups level isLevel) isLeft isRight sameNumber

theorem Fits.queue_unique (fits : tree.Fits names contents port)
    {left right : SchedulerLevel} (isLeft : left ∈ tree.levels)
    (isRight : right ∈ tree.levels) {leftQueue rightQueue : QueueNode}
    (inLeft : leftQueue ∈ left.queues) (inRight : rightQueue ∈ right.queues)
    (isLeftQueue : stored.IsQueue ⟨port, leftQueue.queueType, leftQueue.number⟩)
    (isRightQueue : stored.IsQueue ⟨port, rightQueue.queueType, rightQueue.number⟩) :
    leftQueue = rightQueue := by
  have sameType := isLeftQueue.2.2.1.symm.trans isRightQueue.2.2.1
  have sameNumber := isLeftQueue.2.2.2.symm.trans isRightQueue.2.2.2
  simp only [Except.ok.injEq, Option.some.injEq, AttrValue.symbol.injEq]
    at sameType sameNumber
  exact List.inj_on_of_nodup_map fits.queues (List.mem_flatMap_of_mem isLeft inLeft)
    (List.mem_flatMap_of_mem isRight inRight) (by rw [sameType, sameNumber])

/-- The tree asks for at most one value at any place. -/
theorem Asks.unique (fits : tree.Fits names contents port)
    (distinct : Contents.Distinct contents.objects)
    (left : tree.Asks names contents port stored path value)
    (right : tree.Asks names contents port stored path other) : value = other := by
  cases left with
  | group isLevel isNode found isGroup asks encoded located =>
      cases right with
      | group isLevel' isNode' found' isGroup' asks' encoded' located' =>
          have sameLevel := Option.some.inj (isGroup.2.2.1.symm.trans isGroup'.2.2.1)
          have sameId := Option.some.inj (isGroup.2.2.2.symm.trans isGroup'.2.2.2)
          rcases fits.level_unique isLevel isLevel' sameLevel with rfl
          rw [← sameId] at found'
          rcases fits.group_unique distinct isLevel isNode isNode' found found' with rfl
          rcases ObjectClass.pathOf_injective (ObjectClass.has_of_encode encoded)
            (ObjectClass.has_of_encode encoded') (located.symm.trans located') with rfl
          rcases Option.some.inj (asks.symm.trans asks') with rfl
          exact Except.ok.inj (encoded.symm.trans encoded')
      | queue isLevel' isNode' isQueue asks' encoded' located' =>
          cases ObjectClass.path_injective (isGroup.1.symm.trans isQueue.1)
  | queue isLevel isNode isQueue asks encoded located =>
      cases right with
      | group isLevel' isNode' found isGroup asks' encoded' located' =>
          cases ObjectClass.path_injective (isGroup.1.symm.trans isQueue.1)
      | queue isLevel' isNode' isQueue' asks' encoded' located' =>
          rcases fits.queue_unique isLevel isLevel' isNode isNode' isQueue
            isQueue' with rfl
          rcases Option.some.inj (asks.symm.trans asks') with rfl
          exact Except.ok.inj (encoded.symm.trans encoded')

/-! ## What stays -/

theorem not_asks_group (attr : String)
    (isOf : stored.classPath = ObjectClass.schedulerGroup.path)
    (has : ObjectClass.schedulerGroup.Has attr)
    (other : attr ≠ "scheduler-profile-id" ∧ attr ≠ "child-list" ∧ attr ≠ "child_count") :
    ¬tree.Asks names contents port stored
      (ObjectClass.schedulerGroup.pathOf attr) value := by
  intro asked
  cases asked with
  | group isLevel isNode found isGroup asks encoded located =>
      rcases ObjectClass.pathOf_injective has (ObjectClass.has_of_encode encoded)
        located with rfl
      rw [groupAttr?, if_neg other.1, if_neg other.2.1, if_neg other.2.2] at asks
      cases asks
  | queue isLevel isNode isQueue asks encoded located =>
      cases ObjectClass.path_injective (isOf.symm.trans isQueue.1)

theorem not_asks_queue (attr : String) (isOf : stored.classPath = ObjectClass.queue.path)
    (has : ObjectClass.queue.Has attr) (other : attr ≠ "scheduler-profile-id") :
    ¬tree.Asks names contents port stored (ObjectClass.queue.pathOf attr) value := by
  intro asked
  cases asked with
  | group isLevel isNode found isGroup asks encoded located =>
      cases ObjectClass.path_injective (isOf.symm.trans isGroup.1)
  | queue isLevel isNode isQueue asks encoded located =>
      exact other (ObjectClass.pathOf_injective has
        (ObjectClass.has_of_encode encoded) located)

end SchedulerTree

end SwitchQos
