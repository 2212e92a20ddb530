import SwitchQos.Object.Provisioned
import SwitchQos.Provision.GroupIndex
import SwitchQos.Provision.Error

namespace SwitchQos

/-! Operations on scheduler groups, scheduler profiles and queues of one switch. -/

structure Scheduler where
  switchId : Nat
  deriving DecidableEq, Repr

namespace Scheduler

def submit (object : String) (verb : Verb) (data : Except CodecError Authored) :
    Task (List StoreObject) := do
  let authored ← Task.ofCodec data
  Task.transact object [⟨verb, authored.data⟩]

def createObject (object : String) (data : Except CodecError Authored) : Task Nat := do
  let answers ← submit object .create data
  let answer ← Task.require answers.head?
    (.malformedResponse object "empty create response")
  let record ← Task.ofCodec (Record.wrap answer)
  Task.require (← Task.ofCodec record.id)
    (.malformedResponse object "create response carries no id")

def groupName (id : Nat) : String := "scheduler group " ++ hexText id

/-! ## Groups -/

def portGroups (scheduler : Scheduler) (port : Nat) : Task (List StoreObject) := do
  let template ← Task.ofCodec (portSchedulerGroups scheduler.switchId port)
  Task.query ("scheduler groups of port " ++ toString port) template.data

def groupPosition (portName : String) (group : StoreObject) :
    Except ProvisionError (Nat × Nat) := do
  let object := portName ++ " scheduler group"
  let record ← (Record.wrap group).mapError .codec
  match (← (record.attr "level").mapError .codec).bind AttrValue.asNat? with
  | none => .error (.malformedResponse object "no level")
  | some level =>
      match ← record.id.mapError .codec with
      | none => .error (.malformedResponse object "no id")
      | some id => .ok (level, id)

def readGroups (scheduler : Scheduler) (port : Port) : Task GroupIndex := do
  let groups ← scheduler.portGroups port.ifindex
  let positions ← ExceptT.mk (.done (groups.mapM (groupPosition port.name)))
  return positions.foldl (fun index position => index.insert position.1 position.2) {}

def bindGroupProfile (scheduler : Scheduler) (group profile : Nat) : Task Unit := do
  let _ ← submit (groupName group) .set do
    let data ← schedulerGroup scheduler.switchId group
    data.set "scheduler-profile-id" (.uint profile)

def setChildren (scheduler : Scheduler) (group : Nat)
    (children : List Nat) : Task Unit := do
  if countOfBits 32 ≤ children.length then
    throw (.malformedResponse (groupName group) "child list too long")
  let _ ← submit (groupName group ++ " children") .set do
    let data ← schedulerGroup scheduler.switchId group
    let data ← data.set "child-list" (.list children)
    data.set "child_count" (.uint children.length)

def createGroup (scheduler : Scheduler) (port level : Nat) : Task Nat :=
  createObject ("scheduler group of port " ++ toString port ++ " level " ++
    toString level) do
    let data ← portSchedulerGroups scheduler.switchId port
    data.set "level" (.uint level)

def deleteGroup (scheduler : Scheduler) (group : Nat) : Task Unit := do
  let _ ← submit (groupName group) .delete (schedulerGroup scheduler.switchId group)

/-- The group of a port whose child list holds `child`; the first one answered. -/
def parentGroup (scheduler : Scheduler) (port child : Nat) : Task (Option Nat) := do
  let groups ← scheduler.portGroups port
  Task.ofCodec (search groups)
where
  search : List StoreObject → Except CodecError (Option Nat)
    | [] => .ok none
    | group :: rest => do
        let record ← Record.wrap group
        let children := ((← record.attr "child-list").bind AttrValue.asList?).getD []
        if child ∈ children then record.id else search rest

/-! ## Profiles -/

def createProfile (scheduler : Scheduler) (tag : String)
    (attrs : Directory String String) :
    Task Nat :=
  createObject ("scheduler profile " ++ tag) (schedulerProfile scheduler.switchId attrs)

def deleteProfile (scheduler : Scheduler) (profile : Nat) : Task Unit := do
  let _ ← submit ("scheduler profile " ++ hexText profile) .delete do
    let data ← schedulerProfile scheduler.switchId .empty
    data.set "id" (.uint profile)

/-! ## Queues and ports -/

def queueId (scheduler : Scheduler) (key : QueueKey) : Task (Option Nat) := do
  let template ← Task.ofCodec (key.object scheduler.switchId)
  match ← Task.query key.text template.data with
  | [] => return none
  | queue :: _ => Task.ofCodec do (← Record.wrap queue).id

def bindQueueProfile (scheduler : Scheduler) (key : QueueKey)
    (profile : Nat) : Task Unit := do
  let _ ← submit key.text .set do
    let data ← key.object scheduler.switchId
    data.set "scheduler-profile-id" (.uint profile)

def bindPortProfile (scheduler : Scheduler) (port profile : Nat) : Task Unit := do
  let _ ← submit ("egress scheduler of port " ++ toString port) .set do
    let data ← Direction.egress.portObject scheduler.switchId port
    data.set "scheduler-profile-id" (.uint profile)

end Scheduler

end SwitchQos
