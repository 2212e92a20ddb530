import SwitchQos.Config.Basic
import SwitchQos.Provision.Names
import SwitchQos.Provision.Report
import SwitchQos.Provision.Scheduler

namespace SwitchQos

/-! Building a declared scheduler tree on one port. Every binding is attempted
and recorded. If the groups of the port cannot be read, only the levels above the
leaves are skipped, because queues are addressed by key. -/

namespace Scheduler

def groupTarget (port : Port) (level : SchedulerLevel) (group : GroupNode) : String :=
  port.name ++ " sg " ++ toString level.level ++ "/" ++ toString group.number

def shortfall (port : Port) (index : GroupIndex) (level ordinal : Nat) : ProvisionError :=
  .groupShortfall port.name level ordinal (index.count level)

/-! ## Children -/

/-- The id of a child on the level `next`: the queue at a position of a leaf's
queue list, or the group with an ordinal. -/
def resolveChild (scheduler : Scheduler) (port : Port) (next : SchedulerLevel)
    (index : GroupIndex) (child : Nat) : Task Nat := do
  if next.leaf then
    let queue ← Task.require next.queues[child]?
      (.config "scheduler-tree"
        ("level " ++ toString next.level ++ " has no queue #" ++ toString child))
    let key : QueueKey := ⟨port.ifindex, queue.queueType, queue.number⟩
    let id ← scheduler.queueId key
    Task.require id (.queryFailed key.text "queue not found")
  else
    Task.require (index.get? next.level child) (shortfall port index next.level child)

def resolveChildren (scheduler : Scheduler) (port : Port) (tree : SchedulerTree)
    (level : SchedulerLevel) (index : GroupIndex) (children : List Nat) :
    Task (List Nat) := do
  let next ← Task.require (tree.next? level.level)
    (.config "scheduler-tree"
      ("level " ++ toString level.level ++ " has children but no next level"))
  children.mapM (scheduler.resolveChild port next index)

/-! ## Levels -/

def applyProfile (scheduler : Scheduler) (names : Names) (target : String) (group : Nat)
    (profile : Option String) : Exchange (List Outcome) :=
  match profile with
  | none => return []
  | some profile => do
      let binding : Task Unit := do
        let id ← ExceptT.mk (.done (names.profileId profile))
        scheduler.bindGroupProfile group id
      return [← binding.record (target ++ " profile " ++ profile)]

def applyChildren (scheduler : Scheduler) (port : Port) (tree : SchedulerTree)
    (level : SchedulerLevel) (index : GroupIndex) (target : String) (group : Nat)
    (children : Option (List Nat)) : Exchange (List Outcome) :=
  match children with
  | none => return []
  | some children => do
      let binding : Task Unit := do
        let ids ← scheduler.resolveChildren port tree level index children
        scheduler.setChildren group ids
      return [← binding.record (target ++ " children")]

def applyGroup (scheduler : Scheduler) (names : Names) (port : Port)
    (tree : SchedulerTree) (level : SchedulerLevel) (index : GroupIndex)
    (group : GroupNode) :
    Exchange (List Outcome) :=
  let target := groupTarget port level group
  match index.get? level.level group.number with
  | some id => do
      let profile ← scheduler.applyProfile names target id group.profile
      let children ← scheduler.applyChildren port tree level index target
        id group.children
      return profile ++ children
  | none =>
      if level.platformMayOmit then
        return [.skipped target "not provided by the platform"]
      else
        return [.failed target (shortfall port index level.level group.number)]

def applyQueue (scheduler : Scheduler) (names : Names) (port : Port) (queue : QueueNode) :
    Exchange (List Outcome) :=
  match queue.profile with
  | none => return []
  | some profile => do
      let key : QueueKey := ⟨port.ifindex, queue.queueType, queue.number⟩
      let binding : Task Unit := do
        let id ← ExceptT.mk (.done (names.profileId profile))
        scheduler.bindQueueProfile key id
      return [← binding.record (port.name ++ " " ++ key.text ++ " profile " ++ profile)]

/-- `index` is `none` when the groups of the port could not be read. -/
def applyLevel (scheduler : Scheduler) (names : Names) (port : Port)
    (tree : SchedulerTree) (index : Option GroupIndex) (level : SchedulerLevel) :
    Exchange (List Outcome) :=
  if level.leaf then
    Exchange.collect level.queues (scheduler.applyQueue names port)
  else
    match index with
    | some index =>
        Exchange.collect level.groups (scheduler.applyGroup names port tree level index)
    | none =>
        return level.groups.map fun group =>
          .skipped (groupTarget port level group) "scheduler groups not discovered"

def applyTree (scheduler : Scheduler) (names : Names) (port : Port)
    (tree : SchedulerTree) :
    Exchange (List Outcome) := do
  match ← (scheduler.readGroups port).run with
  | .ok index =>
      Exchange.collect tree.levels (scheduler.applyLevel names port tree (some index))
  | .error error =>
      let outcomes ← Exchange.collect tree.levels
        (scheduler.applyLevel names port tree none)
      return .failed (port.name ++ " scheduler groups") error :: outcomes

end Scheduler

end SwitchQos
