import SwitchQos.Proofs.Provision.TreeCourses

namespace SwitchQos

/-! Every declaration of a tree is accounted for. What is to be recorded of a port follows
from the tree and from the groups that have been discovered, in the order of the
declarations; all that is left to the store is whether an attempt succeeds. -/

inductive Notice where
  | settled (outcome : Outcome)
  /-- An attempt is made, and may fail. -/
  | attempted (target : String)

inductive Notice.Admits : Notice → Outcome → Prop
  | settled (outcome : Outcome) : Admits (.settled outcome) outcome
  | applied (target : String) : Admits (.attempted target) (.applied target)
  | failed (target : String) (error : ProvisionError) :
      Admits (.attempted target) (.failed target error)

def TreeNode.notices (port : Port) (index : Option GroupIndex) : TreeNode → List Notice
  | .group level node =>
      let target := Scheduler.groupTarget port level node
      match index with
      | none => [.settled (.skipped target "scheduler groups not discovered")]
      | some found =>
          let discovered := found.count level.level
          if node.number < discovered then
            (node.profile.toList.map fun profile =>
                .attempted (target ++ " profile " ++ profile)) ++
              node.children.toList.map fun _ => .attempted (target ++ " children")
          else if level.platformMayOmit then
            [.settled (.skipped target "not provided by the platform")]
          else
            [.settled (.failed target
              (.groupShortfall port.name level.level node.number discovered))]
  | .queue node =>
      let key : QueueKey := ⟨port.ifindex, node.queueType, node.number⟩
      node.profile.toList.map fun profile =>
        .attempted (port.name ++ " " ++ key.text ++ " profile " ++ profile)

def SchedulerTree.notices (tree : SchedulerTree) (port : Port) :
    Except ProvisionError GroupIndex → List Notice
  | .ok index => tree.nodes.flatMap (TreeNode.notices port (some index))
  | .error error =>
      .settled (.failed (port.name ++ " scheduler groups") error) ::
        tree.nodes.flatMap (TreeNode.notices port none)

theorem GroupIndex.lt_count_iff {index : GroupIndex} {level ordinal : Nat} :
    ordinal < index.count level ↔ (index.get? level ordinal).isSome := by
  rw [get?, isSome_getElem?]
  rfl

namespace Scheduler

variable {scheduler : Scheduler} {names : Names} {port : Port} {tree : SchedulerTree}
  {turns : List Turn} {target : String} {outcome : Outcome} {outcomes : List Outcome}

/-! ## Attempts -/

theorem admits_ofReply (target name : String) (reply : ObjectsReply) :
    (Notice.attempted target).Admits (.ofReply target name reply) := by
  cases reply with
  | ok answers => exact .applied target
  | error cause => exact .failed target _

theorem admits_of_setting {objects : Set StoreObject}
    (takes : SettingCourse objects target turns outcome) :
    (Notice.attempted target).Admits outcome := by
  cases takes with
  | failed error => exact .failed target error
  | replied _ name reply => exact admits_ofReply target name reply

theorem admits_of_children {level : SchedulerLevel} {index : GroupIndex} {group : Nat}
    {children : List Nat}
    (takes : scheduler.ChildrenCourse port tree level index group target children
      turns outcome) :
    (Notice.attempted target).Admits outcome := by
  cases takes with
  | written _ _ _ name reply => exact admits_ofReply target name reply
  | missed | unplaced | unwritable => exact .failed target _

/-- What is declared is accounted for by one outcome, what is left out by none. -/
theorem admits_of_part {Declared : Type} {course : Declared → List Turn → Outcome → Prop}
    {declared : Option Declared} {target : Declared → String}
    (takes : PartCourse course declared turns outcomes)
    (admits : ∀ part turns outcome, course part turns outcome →
      (Notice.attempted (target part)).Admits outcome) :
    List.Forall₂ Notice.Admits (declared.toList.map fun part => .attempted (target part))
      outcomes := by
  cases takes with
  | absent => exact .nil
  | declared takes => exact .cons (admits _ _ _ takes) .nil

/-! ## Nodes -/

theorem admits_of_course {index : Option GroupIndex} {node : TreeNode}
    (takes : scheduler.NodeCourse names port tree index node turns outcomes) :
    List.Forall₂ Notice.Admits (node.notices port index) outcomes := by
  cases takes with
  | undiscovered unread =>
      subst unread
      exact .cons (.settled _) .nil
  | omitted read missing mayOmit =>
      subst read
      rw [TreeNode.notices, if_neg
        (by simp [GroupIndex.lt_count_iff, missing]), if_pos mayOmit]
      exact .cons (.settled _) .nil
  | short read missing required =>
      subst read
      rw [TreeNode.notices, if_neg (by simp [GroupIndex.lt_count_iff, missing]),
        if_neg (by simp [required])]
      exact .cons (.settled _) .nil
  | group read discovered profile children =>
      subst read
      rw [TreeNode.notices, if_pos (by simp [GroupIndex.lt_count_iff, discovered])]
      exact List.rel_append (admits_of_part profile fun _ _ _ => admits_of_setting)
        (admits_of_part children fun _ _ _ => admits_of_children)
  | queue profile => exact admits_of_part profile fun _ _ _ => admits_of_setting

theorem admits_of_courses {index : Option GroupIndex} {nodes : List TreeNode}
    {episodes : List (Episode Outcome)}
    (courses : List.Forall₂ (fun node episode =>
      scheduler.NodeCourse names port tree index node
      episode.turns episode.results) nodes episodes) :
    List.Forall₂ Notice.Admits (nodes.flatMap (TreeNode.notices port index))
      (episodes.flatMap Episode.results) := by
  induction courses with
  | nil => exact .nil
  | cons first _ induction => exact List.rel_append (admits_of_course first) induction

/-- However the store replies, building a tree comes to an end, and what is recorded
answers the notices of the tree one by one. -/
theorem applyTree_accounts_for_all {State : Type} (scheduler : Scheduler) (names : Names)
    (port : Port) (tree : SchedulerTree) (responder : Responder State) (before : State) :
    ∃ found middle outcomes after,
      (scheduler.readGroups port).run.Ends responder before found middle ∧
      (scheduler.applyTree names port tree).Ends responder before outcomes after ∧
      List.Forall₂ Notice.Admits (tree.notices port found) outcomes := by
  rcases applyTree_takes_courses scheduler names port tree responder before with
    ⟨found, middle, episodes, after, read, applied, -, -, courses⟩
  refine ⟨found, middle, _, after, read, applied, ?_⟩
  cases found with
  | ok index => exact admits_of_courses courses
  | error error => exact .cons (.settled _) (admits_of_courses courses)

end Scheduler

end SwitchQos
