import SwitchQos.Config.Basic
import SwitchQos.Json.Fields

namespace SwitchQos

/-! The shape that a document must have to be a configuration. Nodes carry their
kind in a member of their own, or as the first item where they are arrays. -/

inductive ShapeFault where
  /-- Not JSON, or not of the declared shape. -/
  | unfit
  /-- A map type has two bindings for one direction. -/
  | boundTwice (mapType : MapType)
  deriving DecidableEq, Repr

namespace ShapeFault

def message : ShapeFault → String
  | .unfit => "the document does not have the declared shape"
  | .boundTwice mapType => mapType.name ++ " is bound more than once"

def fitting {Value : Type} : Option Value → Except ShapeFault Value
  | some value => .ok value
  | none => .error .unfit

end ShapeFault

/-! ## Globals -/

/-- A map type is written as its name, or as an object with the name as its only
key and nothing under it. -/
def MapType.ofJson? : Json → Option MapType
  | .text (some name) => ofName? name
  | .object [(some name, .null)] | .object [(some name, .object [])] => ofName? name
  | _ => none

def ConfigValue.ofJson? : Json → Option ConfigValue
  | .number numeral =>
      numeral.int?.map fun number : Int =>
        if number < countOfBits 63 then .int number else .uint number.toNat
  | .text content => content.map .text
  | .array items => (items.mapM Json.int64?).map .list
  | _ => none

/-- Values by name; of two values with one name the later stays. -/
def ConfigValue.namedOfJson? : Json → Option (Directory String ConfigValue)
  | .object members => do
      let named ← Json.namedMembers? members
      let rows ← named.mapM fun member =>
        (ConfigValue.ofJson? member.2).map fun value => (member.1, value)
      return Directory.ofRows rows
  | _ => none

def EntryNode.ofJson? : Json → Option EntryNode
  | .array items => (items.mapM ConfigValue.ofJson?).map .positional
  | value => (ConfigValue.namedOfJson? value).map .named

def MapNode.ofJson? (value : Json) : Option MapNode := do
  let fields ← value.fields? ["type", "tag", "min", "max", "entries"]
  let mapType ← fields.required? "type" MapType.ofJson?
  let tag ← fields.required? "tag" Json.text?
  let least ← fields.optional? "min" none (Json.optional? Json.int64?)
  let greatest ← fields.optional? "max" none (Json.optional? Json.int64?)
  let entries ← fields.optional? "entries" [] (Json.items? EntryNode.ofJson?)
  return { mapType, tag, least, greatest, entries }

def ProfileNode.ofJson? (value : Json) : Option ProfileNode := do
  let fields ← value.fields? ["tag", "attrs"]
  let tag ← fields.required? "tag" Json.text?
  let attrs ← fields.optional? "attrs" .empty ConfigValue.namedOfJson?
  return { tag, attrs }

def GlobalsNode.ofJson? (value : Json) : Option GlobalsNode := do
  let fields ← value.fields? ["maps", "scheduler-profiles"]
  let maps ← fields.optional? "maps" [] (Json.items? MapNode.ofJson?)
  let profiles ← fields.optional? "scheduler-profiles" []
    (Json.items? ProfileNode.ofJson?)
  return { maps, profiles }

/-! ## Scheduler trees -/

def GroupNode.ofJson? (value : Json) : Option GroupNode := do
  let fields ← value.fields? ["number", "scheduler-profile", "children"]
  let number ← fields.required? "number" (Json.nat? 64)
  let profile ← fields.optional? "scheduler-profile" none (Json.optional? Json.text?)
  let children ← fields.optional? "children" none
    (Json.optional? (Json.items? (Json.nat? 64)))
  return { number, profile, children }

def QueueNode.ofJson? (value : Json) : Option QueueNode := do
  let fields ← value.fields? ["type", "number", "scheduler-profile"]
  let queueType ← fields.required? "type" Json.text?
  let number ← fields.required? "number" (Json.nat? 32)
  let profile ← fields.optional? "scheduler-profile" none (Json.optional? Json.text?)
  return { queueType, number, profile }

def SchedulerLevel.ofJson? (value : Json) : Option SchedulerLevel := do
  let fields ← value.fields? ["level", "leaf", "platform-may-omit", "groups", "queues"]
  let level ← fields.required? "level" (Json.nat? 32)
  let leaf ← fields.optional? "leaf" false Json.bool?
  let platformMayOmit ← fields.optional? "platform-may-omit" false Json.bool?
  let groups ← fields.optional? "groups" [] (Json.items? GroupNode.ofJson?)
  let queues ← fields.optional? "queues" [] (Json.items? QueueNode.ofJson?)
  return { level, leaf, platformMayOmit, groups, queues }

def SchedulerTree.ofJson? (value : Json) : Option SchedulerTree := do
  let fields ← value.fields? ["levels"]
  let levels ← fields.required? "levels" (Json.items? SchedulerLevel.ofJson?)
  return { levels }

/-! ## Port nodes -/

def MapBindings.addMembers (bound : MapBindings) :
    List (JsonText × Json) → Except ShapeFault MapBindings
  | [] => .ok bound
  | (key, value) :: rest => do
      let mapType ← ShapeFault.fitting (key.bind MapType.ofName?)
      let tag ← ShapeFault.fitting value.text?
      if mapType ∈ bound.map (·.1) then .error (.boundTwice mapType)
      else MapBindings.addMembers (bound ++ [(mapType, tag)]) rest

def MapBindings.ofJson : Json → Except ShapeFault MapBindings
  | .object members => MapBindings.addMembers [] members
  | _ => .error .unfit

def PortNode.readField (node : PortNode) (field : String × Json) :
    Except ShapeFault PortNode :=
  match field with
  | ("ingress", value) => do
      let ingress ← MapBindings.ofJson value
      .ok { node with ingress }
  | ("egress", value) => do
      let egress ← MapBindings.ofJson value
      .ok { node with egress }
  | (_, value) => do
      let tree ← ShapeFault.fitting (Json.optional? SchedulerTree.ofJson? value)
      .ok { node with tree }

def PortNode.ofJson (value : Json) : Except ShapeFault PortNode := do
  let fields ← ShapeFault.fitting (value.fields? ["ingress", "egress", "scheduler-tree"])
  fields.foldlM PortNode.readField {}

/-! ## Nodes -/

/-- The text that names the kind of a node, and what else the node holds. -/
def ConfigNode.tagged? : Json → Option (String × Json)
  | .array (.text (some kind) :: items) => some (kind, .array items)
  | .object members =>
      match members.filter fun member => member.1 = some "node" with
      | [(_, .text (some kind))] =>
          some (kind, .object (members.filter fun member => member.1 ≠ some "node"))
      | _ => none
  | _ => none

def nestingLimit : Nat := 127

/-- Every part of a node has to be plain, also a part that is not looked at. Two
containers are open around a node. -/
def ConfigNode.ofJson (value : Json) : Except ShapeFault ConfigNode := do
  let (kind, content) ← ShapeFault.fitting
    (if value.isPlain (nestingLimit - 2) then tagged? value else none)
  match kind with
  | "switch-globals" => ShapeFault.fitting ((GlobalsNode.ofJson? content).map .globals)
  | "front-panel-ports" => (PortNode.ofJson content).map (.ports .frontPanel)
  | "cpu-port" => (PortNode.ofJson content).map (.ports .cpu)
  | _ => .error .unfit

def Config.ofJson (value : Json) : Except ShapeFault Config := do
  let fields ← ShapeFault.fitting (value.fields? ["nodes"])
  let items ← ShapeFault.fitting (fields.required? "nodes" (Json.items? some))
  let nodes ← items.mapM ConfigNode.ofJson
  .ok { nodes }

end SwitchQos
