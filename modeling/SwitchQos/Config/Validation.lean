import SwitchQos.Config.Basic

namespace SwitchQos

/-! A configuration can have the right shape and still not make sense: a range
with one bound or with crossed bounds, groups on a leaf level, queues elsewhere.
The first fault in the order written is reported. -/

inductive ConfigFault where
  | crossedRange (tag : String) (least greatest : Int)
  | halfRange (tag : String)
  | groupsOnLeaf (level : Nat)
  | queuesOffLeaf (level : Nat)
  deriving DecidableEq, Repr

def ConfigFault.message : ConfigFault → String
  | .crossedRange tag least greatest =>
      "map " ++ tag ++ ": min " ++ toString least ++ " > max " ++ toString greatest
  | .halfRange tag => "map " ++ tag ++ ": min and max go together"
  | .groupsOnLeaf level => "leaf level " ++ toString level ++ " declares groups"
  | .queuesOffLeaf level =>
      "level " ++ toString level ++ " declares queues but is not a leaf"

def MapNode.fault? (node : MapNode) : Option ConfigFault :=
  match node.least, node.greatest with
  | some least, some greatest =>
      if least > greatest then some (.crossedRange node.tag least greatest) else none
  | some _, none | none, some _ => some (.halfRange node.tag)
  | none, none => none

def SchedulerLevel.fault? (level : SchedulerLevel) : Option ConfigFault :=
  if level.leaf && !level.groups.isEmpty then some (.groupsOnLeaf level.level)
  else if !level.leaf && !level.queues.isEmpty then some (.queuesOffLeaf level.level)
  else none

def ConfigNode.fault? : ConfigNode → Option ConfigFault
  | .globals node => node.maps.findSome? MapNode.fault?
  | .ports _ node => node.tree.bind fun tree =>
      tree.levels.findSome? SchedulerLevel.fault?

def Config.fault? (config : Config) : Option ConfigFault :=
  config.nodes.findSome? ConfigNode.fault?

end SwitchQos
