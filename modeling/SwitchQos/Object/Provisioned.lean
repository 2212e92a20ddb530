import SwitchQos.Object.Record

namespace SwitchQos

/-! The objects a switch is provisioned with, apart from map tables: scheduler
groups, scheduler profiles, queues and the two QoS objects of a port. Each
carries the id of its switch. -/

def Authored.onSwitch (objectClass : ObjectClass) (switchId : Nat) :
    Except CodecError Authored :=
  (Authored.new objectClass).set "switch-id" (.uint switchId)

def schedulerGroup (switchId id : Nat) : Except CodecError Authored := do
  let group ← Authored.onSwitch .schedulerGroup switchId
  group.set "id" (.uint id)

def portSchedulerGroups (switchId port : Nat) : Except CodecError Authored := do
  let group ← Authored.onSwitch .schedulerGroup switchId
  group.set "port-id" (.uint port)

/-- A scheduler profile whose attributes are given as configuration text. They
are written in the order of their names. -/
def schedulerProfile (switchId : Nat) (attrs : Directory String String) :
    Except CodecError Authored := do
  let profile ← Authored.onSwitch .schedulerProfile switchId
  profile.setTexts attrs.rows

/-! ## Queues -/

structure QueueKey where
  port : Nat
  queueType : String
  number : Nat
  deriving DecidableEq, Repr

namespace QueueKey

def text (key : QueueKey) : String :=
  "queue " ++ toString key.port ++ ":" ++ key.queueType ++ ":" ++ toString key.number

def object (key : QueueKey) (switchId : Nat) : Except CodecError Authored := do
  let queue ← Authored.onSwitch .queue switchId
  let queue ← queue.set "port-id" (.uint key.port)
  let queue ← queue.set "type" (.symbol key.queueType)
  queue.set "queue-number" (.uint key.number)

end QueueKey

/-! ## Ports -/

inductive Direction where
  | ingress
  | egress
  deriving DecidableEq, Repr

namespace Direction

def name : Direction → String
  | .ingress => "ingress"
  | .egress => "egress"

def objectClass : Direction → ObjectClass
  | .ingress => .portIngress
  | .egress => .portEgress

def portObject (direction : Direction) (switchId port : Nat) :
    Except CodecError Authored := do
  let object ← Authored.onSwitch direction.objectClass switchId
  object.set "port-id" (.uint port)

end Direction

end SwitchQos
