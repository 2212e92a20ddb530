import Mathlib.Data.List.Basic
import SwitchQos.Config.Validation

namespace SwitchQos

/-! A configuration makes sense if its ranges have both bounds or none, in order, and
groups and queues stand on levels of their kind. The search for a fault passes just these,
whatever node of whatever kind, and whatever position in it, a fault could have. -/

/-- Neither bound is given, or both are and they are in order. -/
def MapNode.BoundsFit (node : MapNode) : Prop :=
  (node.least = none ∧ node.greatest = none) ∨
    ∃ least greatest, node.least = some least ∧ node.greatest = some greatest ∧
    least ≤ greatest

theorem MapNode.fault?_eq_none_iff {node : MapNode} : node.fault? = none ↔
    node.BoundsFit := by
  rw [fault?, BoundsFit]
  cases node.least <;> cases node.greatest <;> simp

def SchedulerLevel.KindFits (level : SchedulerLevel) : Prop :=
  (level.leaf = true → level.groups = []) ∧ (level.leaf = false → level.queues = [])

theorem SchedulerLevel.fault?_eq_none_iff {level : SchedulerLevel} :
    level.fault? = none ↔ level.KindFits := by
  rw [fault?, KindFits]
  cases level.leaf <;> cases level.groups <;> cases level.queues <;> simp

namespace Config

variable {config : Config}

theorem fault?_level {interfaceClass : InterfaceClass} {node : PortNode}
    (accepted : config.fault? = none) (isNode : .ports interfaceClass node ∈ config.nodes)
    (tree : SchedulerTree) (isTree : node.tree = some tree) :
    ∀ level ∈ tree.levels, level.fault? = none := by
  have own := List.findSome?_eq_none_iff.mp accepted _ isNode
  rw [ConfigNode.fault?, isTree] at own
  exact List.findSome?_eq_none_iff.mp own

structure WellFormed (config : Config) : Prop where
  bounds : ∀ globals, .globals globals ∈ config.nodes →
  ∀ node ∈ globals.maps, node.BoundsFit
  levels : ∀ interfaceClass node, .ports interfaceClass node ∈ config.nodes →
    ∀ tree, node.tree = some tree → ∀ level ∈ tree.levels, level.KindFits

theorem fault?_eq_none_iff : config.fault? = none ↔ config.WellFormed := by
  constructor
  · intro accepted
    refine ⟨fun globals isNode node isMap =>
      ?_, fun _ _ isNode tree isTree level isLevel => ?_⟩
    · have own := List.findSome?_eq_none_iff.mp accepted _ isNode
      exact MapNode.fault?_eq_none_iff.mp (List.findSome?_eq_none_iff.mp own node isMap)
    · have own := fault?_level accepted isNode tree isTree level isLevel
      exact SchedulerLevel.fault?_eq_none_iff.mp own
  · intro sound
    refine List.findSome?_eq_none_iff.mpr fun node isNode => ?_
    cases node with
    | globals globals =>
        exact List.findSome?_eq_none_iff.mpr fun node isMap =>
          MapNode.fault?_eq_none_iff.mpr (sound.bounds globals isNode node isMap)
    | ports interfaceClass node =>
        refine Option.bind_eq_none_iff.mpr fun tree isTree => ?_
        exact List.findSome?_eq_none_iff.mpr fun level isLevel =>
          SchedulerLevel.fault?_eq_none_iff.mpr
            (sound.levels interfaceClass node isNode tree isTree level isLevel)

end Config

end SwitchQos
