import SwitchQos.Config.Document
import SwitchQos.Store.Topology

namespace SwitchQos

/-! Topologies as documents. -/

def TopologyPort.ofJson? (value : Json) : Option TopologyPort := do
  let fields ← value.fields?
    ["name", "ifindex", "cpu", "scheduler-groups", "unicast-queues", "multicast-queues"]
  let name ← fields.required? "name" Json.text?
  let ifindex ← fields.required? "ifindex" (Json.nat? 32)
  let cpu ← fields.optional? "cpu" false Json.bool?
  let schedulerGroups ← fields.optional? "scheduler-groups" []
    (Json.items? (Json.nat? 64))
  let unicastQueues ← fields.optional? "unicast-queues" 0 (Json.nat? 32)
  let multicastQueues ← fields.optional? "multicast-queues" 0 (Json.nat? 32)
  return { name, ifindex, cpu, schedulerGroups, unicastQueues, multicastQueues }

namespace Topology

def ofJson? (value : Json) : Option Topology := do
  let fields ← value.fields? ["ports"]
  let ports ← fields.required? "ports" (Json.items? TopologyPort.ofJson?)
  return { ports }

def ofText (text : String) : Except DocumentError Topology :=
  (ShapeFault.fitting ((Json.ofText? text).bind ofJson?)).mapError .malformed

def ofSource (source : Source) : Except DocumentError Topology := do
  let text ← source.text.mapError .unreadable
  ofText text

end Topology

end SwitchQos
