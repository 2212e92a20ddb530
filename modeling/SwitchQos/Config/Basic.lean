import SwitchQos.MapEntry.Expansion
import SwitchQos.Store.Request

namespace SwitchQos

/-! A configuration is an ordered list of nodes. Global nodes declare map tables
and scheduler profiles under tags; port nodes say, for the ports of one interface
class, which tagged maps to bind and which scheduler tree to build. -/

/-! ## Globals -/

inductive ConfigValue where
  | int (number : Int)
  /-- A number above the signed 64-bit range. -/
  | uint (number : Nat)
  | text (content : String)
  | list (items : List Int)
  deriving DecidableEq, Repr

def ConfigValue.toText : ConfigValue → String
  | .int number => toString number
  | .uint number => toString number
  | .text content => content
  | .list items => ",".intercalate (items.map fun item => toString item)

inductive EntryNode where
  | positional (values : List ConfigValue)
  | named (values : Directory String ConfigValue)
  deriving DecidableEq, Repr

def EntryNode.authored : EntryNode → AuthoredEntry
  | .positional values => .positional (values.map ConfigValue.toText)
  | .named values => .named (values.map ConfigValue.toText)

structure MapNode where
  mapType : MapType
  tag : String
  least : Option Int := none
  greatest : Option Int := none
  entries : List EntryNode := []
  deriving DecidableEq, Repr

def MapNode.range (node : MapNode) : Option IntRange :=
  match node.least, node.greatest with
  | some least, some greatest => some ⟨least, greatest⟩
  | _, _ => none

structure ProfileNode where
  tag : String
  attrs : Directory String ConfigValue := {}
  deriving DecidableEq, Repr

def ProfileNode.attrTexts (node : ProfileNode) : Directory String String :=
  node.attrs.map ConfigValue.toText

structure GlobalsNode where
  maps : List MapNode := []
  profiles : List ProfileNode := []
  deriving DecidableEq, Repr

/-! ## Scheduler trees -/

/-- A scheduler group of a tree, addressed by its ordinal on its level. -/
structure GroupNode where
  number : Nat
  profile : Option String := none
  /-- The full child list: ordinals on the next level, or positions in the queue
  list of the next level if that is a leaf. -/
  children : Option (List Nat) := none
  deriving DecidableEq, Repr

structure QueueNode where
  queueType : String
  number : Nat
  profile : Option String := none
  deriving DecidableEq, Repr

structure SchedulerLevel where
  level : Nat
  leaf : Bool := false
  /-- The platform may have fewer groups than are declared on this level. -/
  platformMayOmit : Bool := false
  groups : List GroupNode := []
  queues : List QueueNode := []
  deriving DecidableEq, Repr

structure SchedulerTree where
  levels : List SchedulerLevel
  deriving DecidableEq, Repr

/-- The level declared right after the first one that has the number `level`. -/
def SchedulerTree.next? (tree : SchedulerTree) (level : Nat) : Option SchedulerLevel :=
  ((tree.levels.dropWhile fun declared => declared.level ≠ level).drop 1).head?

/-! ## Nodes -/

abbrev MapBindings := List (MapType × String)

structure PortNode where
  ingress : MapBindings := []
  egress : MapBindings := []
  tree : Option SchedulerTree := none
  deriving DecidableEq, Repr

inductive ConfigNode where
  | globals (node : GlobalsNode)
  | ports (interfaceClass : InterfaceClass) (node : PortNode)
  deriving DecidableEq, Repr

structure Config where
  nodes : List ConfigNode := []
  deriving DecidableEq, Repr

namespace Config

def globals (config : Config) : List GlobalsNode :=
  config.nodes.filterMap fun node =>
    match node with
    | .globals node => some node
    | .ports _ _ => none

def portNode? (config : Config) (interfaceClass : InterfaceClass) : Option PortNode :=
  config.nodes.findSome? fun node =>
    match node with
    | .globals _ => none
    | .ports of node => if of = interfaceClass then some node else none

end Config

end SwitchQos
