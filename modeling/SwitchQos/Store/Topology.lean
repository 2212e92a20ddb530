import SwitchQos.Object.Provisioned
import SwitchQos.Store.Memory

namespace SwitchQos

/-! A topology describes the ports of a simulated switch. A store seeded from it
holds the objects a platform creates on its own: the QoS objects of each port,
its scheduler groups level by level, and its queues. -/

structure TopologyPort where
  name : String
  ifindex : Nat
  cpu : Bool := false
  /-- How many scheduler groups each level has, from the root on. -/
  schedulerGroups : List Nat := []
  unicastQueues : Nat := 0
  multicastQueues : Nat := 0
  deriving DecidableEq, Repr

structure Topology where
  ports : List TopologyPort
  deriving DecidableEq, Repr

def TopologyPort.listed (port : TopologyPort) : Port :=
  ⟨port.name, port.ifindex,
    (if port.cpu then InterfaceClass.cpu else InterfaceClass.frontPanel).typeName⟩

namespace Memory

/-- Store an object without the checks of a transaction. -/
def seed (memory : Memory) (object : StoreObject) : Memory :=
  { memory with contents := memory.contents.add object }

def takeId (memory : Memory) : Nat × Memory :=
  (memory.contents.nextId,
    { memory with
      contents := { memory.contents with nextId := memory.contents.nextId + 1 } })

/-- Seeding can fail half-way; the changes made up to then stay. -/
abbrev Seeding (Result : Type) := ExceptT CodecError (StateM Memory) Result

def seededGroup (switchId port level id : Nat) : Except CodecError StoreObject := do
  let group ← schedulerGroup switchId id
  let group ← group.set "port-id" (.uint port)
  let group ← group.set "level" (.uint level)
  let group ← group.set "child_count" (.uint 0)
  .ok group.data

/-- Add scheduler groups to a level of a port and give their ids in ascending
order. They are stored in descending order, so readers have to sort them. -/
def addSchedulerGroups (port level count : Nat) : Seeding (List Nat) := do
  let ids ← (List.range count).mapM fun _ => modifyGet takeId
  let switchId := (← get).switchId
  for id in ids.reverse do
    let group ← seededGroup switchId port level id
    modify fun memory => memory.seed group
  return ids

def addQueues (port : Nat) (queueType : String) (count : Nat) : Seeding (List Nat) :=
  (List.range count).mapM fun number => do
    let id ← modifyGet takeId
    let switchId := (← get).switchId
    let queue ← (QueueKey.mk port queueType number).object switchId
    let queue ← queue.set "id" (.uint id)
    modify fun memory => memory.seed queue.data
    return id

def addPortObjects (port : Nat) : Seeding Unit := do
  let switchId := (← get).switchId
  for direction in [Direction.ingress, Direction.egress] do
    let object ← direction.portObject switchId port
    modify fun memory => memory.seed object.data

def addPort (port : TopologyPort) : Seeding Unit := do
  addPortObjects port.ifindex
  for (count, level) in port.schedulerGroups.zipIdx do
    let _ ← addSchedulerGroups port.ifindex level count
  let _ ← addQueues port.ifindex "UCAST" port.unicastQueues
  let _ ← addQueues port.ifindex "MULTICAST" port.multicastQueues

def ofTopology (switchId : Nat) (topology : Topology) : Except CodecError Memory :=
  let (result, memory) := (topology.ports.forM addPort).run (Memory.new switchId)
  match result with
  | .error cause => .error cause
  | .ok () =>
      let (cpu, frontPanel) := topology.ports.partition fun port => port.cpu
      .ok ((memory.setPorts .frontPanel (frontPanel.map TopologyPort.listed)).setPorts
        .cpu (cpu.map TopologyPort.listed))

end Memory

end SwitchQos
