import SwitchQos.Schema.ObjectClass
import SwitchQos.Schema.Storage
import SwitchQos.Schema.Symbol

namespace SwitchQos

/-! The schema of a class lists its attributes in order and says for each how
its value is shaped, how its numbers are stored, and under which class path it
is kept. -/

inductive AttrKind where
  | scalar
  | symbol (family : SymbolFamily)
  | list
  | entries
  deriving DecidableEq, Repr

def AttrKind.description : AttrKind → String
  | .scalar => "Scalar"
  | .symbol family => "Enum \x7b prefix: \"" ++ family.keyPrefix ++ "\" \x7d"
  | .list => "List"
  | .entries => "Entries"

inductive Scope where
  | own
  | parent
  deriving DecidableEq, Repr

structure AttrSpec where
  kind : AttrKind
  storage : Storage
  scope : Scope := .own
  deriving DecidableEq, Repr

namespace AttrSpec

def scalar (storage : Storage) : AttrSpec := ⟨.scalar, storage, .own⟩

def symbol (family : SymbolFamily) : AttrSpec := ⟨.symbol family, .uint32, .own⟩

def list (storage : Storage) : AttrSpec := ⟨.list, storage, .own⟩

def entries : AttrSpec := ⟨.entries, .uint64, .own⟩

/-- Keep the attribute under the parent's path: an entry carries the keys of its
table. -/
def inParent (spec : AttrSpec) : AttrSpec := { spec with scope := .parent }

end AttrSpec

namespace ObjectClass

def schema : ObjectClass → List (String × AttrSpec)
  | .schedulerGroup =>
      [("switch-id", .scalar .uint32),
       ("id", .scalar .uint64),
       ("port-id", .scalar .uint32),
       ("level", .scalar .uint32),
       ("scheduler-profile-id", .scalar .uint64),
       ("child_count", .scalar .uint32),
       ("child-list", .list .uint64)]
  | .schedulerProfile =>
      [("switch-id", .scalar .uint32),
       ("id", .scalar .uint64),
       ("algorithm", .symbol .schedulingType),
       ("weight", .scalar .uint32),
       ("meter-type", .symbol .meterType),
       ("min-rate", .scalar .uint64),
       ("min-burst", .scalar .uint64),
       ("max-rate", .scalar .uint64),
       ("max-burst", .scalar .uint64),
       ("npu-id-list", .list .uint32)]
  | .queue =>
      [("switch-id", .scalar .uint32),
       ("port-id", .scalar .uint32),
       ("type", .symbol .queueType),
       ("queue-number", .scalar .uint32),
       ("id", .scalar .uint64),
       ("wred-id", .scalar .uint64),
       ("buffer-profile-id", .scalar .uint64),
       ("scheduler-profile-id", .scalar .uint64)]
  | .portIngress =>
      [("switch-id", .scalar .uint32),
       ("port-id", .scalar .uint32),
       ("default-traffic-class", .scalar .uint8),
       ("dot1p-to-tc-map", .scalar .uint64),
       ("dot1p-to-color-map", .scalar .uint64),
       ("dot1p-to-tc-color-map", .scalar .uint64),
       ("dscp-to-tc-map", .scalar .uint64),
       ("dscp-to-color-map", .scalar .uint64),
       ("dscp-to-tc-color-map", .scalar .uint64),
       ("tc-to-queue-map", .scalar .uint64),
       ("flow-control", .symbol .flowControl),
       ("policer_id", .scalar .uint64),
       ("flood_storm_control", .scalar .uint64),
       ("broadcast_storm_control", .scalar .uint64),
       ("multicast_storm_control", .scalar .uint64),
       ("priority_group_number", .scalar .uint32),
       ("priority_group_id_list", .list .uint64),
       ("per_priority_flow_control", .scalar .uint8),
       ("tc-to-priority-group-map", .scalar .uint64),
       ("priority-group-to-pfc-priority-map", .scalar .uint64)]
  | .portEgress =>
      [("switch-id", .scalar .uint32),
       ("port-id", .scalar .uint32),
       ("buffer-limit", .scalar .uint64),
       ("drop-type", .symbol .packetDropType),
       ("wred-profile-id", .scalar .uint64),
       ("scheduler-profile-id", .scalar .uint64),
       ("num-unicast-queue", .scalar .uint8),
       ("num-multicast-queue", .scalar .uint8),
       ("num-queue", .scalar .uint8),
       ("tc-to-queue-map", .scalar .uint64),
       ("tc-to-dot1p-map", .scalar .uint64),
       ("tc-to-dscp-map", .scalar .uint64),
       ("tc-color-to-dot1p-map", .scalar .uint64),
       ("tc-color-to-dscp-map", .scalar .uint64),
       ("pfc-priority-to-queue-map", .scalar .uint64)]
  | .mapTable _ =>
      [("switch-id", .scalar .uint32),
       ("id", .scalar .uint64),
       ("entry", .entries)]
  | .mapEntry _ =>
      [("switch-id", (AttrSpec.scalar .uint32).inParent),
       ("id", (AttrSpec.scalar .uint64).inParent),
       ("dot1p", .scalar .uint8),
       ("tc", .scalar .uint8),
       ("dscp", .scalar .uint8),
       ("color", .symbol .packetColor),
       ("queue-number", .scalar .uint32),
       ("type", .symbol .queueType),
       ("priority-group", .scalar .int8),
       ("pfc-priority", .scalar .uint8)]

def spec? (objectClass : ObjectClass) (attr : String) : Option AttrSpec :=
  objectClass.schema.lookup attr

def spec (objectClass : ObjectClass) (attr : String) : Except CodecError AttrSpec :=
  match objectClass.spec? attr with
  | some spec => .ok spec
  | none => .error (.unknownAttribute objectClass.path attr)

def owner (objectClass : ObjectClass) : Scope → ObjectClass
  | .own => objectClass
  | .parent => objectClass.parent?.getD objectClass

def attrPath? (objectClass : ObjectClass) (attr : String) : Option String :=
  (objectClass.spec? attr).map fun spec =>
    (objectClass.owner spec.scope).path ++ "/" ++ attr

def attrPath (objectClass : ObjectClass) (attr : String) : Except CodecError String :=
  match objectClass.attrPath? attr with
  | some path => .ok path
  | none => .error (.unknownAttribute objectClass.path attr)

def keyPaths (objectClass : ObjectClass) : List String :=
  objectClass.keyAttrs.filterMap objectClass.attrPath?

example : (ObjectClass.mapEntry .dscpToTc).attrPath? "id" =
    some "base-qos/dscp-to-tc-map/id" := by decide
example : (ObjectClass.mapEntry .dscpToTc).attrPath? "dscp" =
    some "base-qos/dscp-to-tc-map/entry/dscp" := by decide

end ObjectClass

end SwitchQos
