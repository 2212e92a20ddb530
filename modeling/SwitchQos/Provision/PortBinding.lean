import SwitchQos.Config.Basic
import SwitchQos.Object.Provisioned
import SwitchQos.Provision.Names
import SwitchQos.Provision.Report

namespace SwitchQos

/-! Binding the tagged maps of a port node to the QoS objects of a port. -/

def notProvisioned : String := "map type is not provisioned at init"

def bindMap (switchId : Nat) (names : Names) (port : Port) (direction : Direction)
    (mapType : MapType) (tag : String) : Task Unit := do
  let id ← ExceptT.mk (.done (names.mapId tag))
  let object ← Task.ofCodec do
    let object ← direction.portObject switchId port.ifindex
    object.set mapType.name (.uint id)
  let _ ← Task.transact (port.name ++ " " ++ direction.name ++ " " ++ mapType.name)
    [⟨.set, object.data⟩]

def bindDirection (switchId : Nat) (names : Names) (port : Port) (direction : Direction)
    (bindings : MapBindings) : Exchange (List Outcome) :=
  Exchange.collect bindings fun (mapType, tag) => do
    let target := port.name ++ " " ++ direction.name ++ " " ++ mapType.name ++ " " ++ tag
    if mapType.isProvisionable then
      return [← (bindMap switchId names port direction mapType tag).record target]
    else
      return [.skipped target notProvisioned]

def bindPortMaps (switchId : Nat) (names : Names) (port : Port) (node : PortNode) :
    Exchange (List Outcome) := do
  let ingress ← bindDirection switchId names port .ingress node.ingress
  let egress ← bindDirection switchId names port .egress node.egress
  return ingress ++ egress

end SwitchQos
