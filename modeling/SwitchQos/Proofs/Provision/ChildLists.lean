import SwitchQos.Proofs.Provision.TreeCourses

namespace SwitchQos

/-! Child lists are written whole or not at all. A store keeps the list that it was given
last, so a list that lacked children would cut these off the tree. A list is submitted in
the very last turn of a group, after all its children have been found, and nothing is
submitted if one of them has not. -/

def SetsOne (batch : List Operation) : Prop :=
  ∃ object : StoreObject, batch = [⟨.set, object⟩] ∧
    (object.classPath = ObjectClass.schedulerGroup.path ∨
      object.classPath = ObjectClass.queue.path)

/-- Nothing that is submitted has to do with children. -/
def Turn.Unlisted (turns : List Turn) : Prop :=
  ∀ batch ∈ submissions turns, ∀ operation ∈ batch,
    ∀ attr ∈ ["child-list", "child_count"],
    operation.object.get? (ObjectClass.schedulerGroup.pathOf attr) = none

theorem Turn.unlisted_append {first second : List Turn} (isFirst : Unlisted first)
    (isSecond : Unlisted second) : Unlisted (first ++ second) := by
  intro batch member
  rw [submissions_append] at member
  exact (List.mem_append.mp member).elim (isFirst batch) (isSecond batch)

theorem Turn.unlisted_of_silent {turns : List Turn} (silent : submissions turns = []) :
    Unlisted turns := by
  intro batch member
  rw [silent] at member
  cases member

namespace Scheduler

section Lists

variable (scheduler : Scheduler) (port : Port) (tree : SchedulerTree)

/-- Why the children of a group on the level are not written: no level follows, or a child
has not been found in the last turns, or else numbers do not fit. -/
inductive Withheld (level : SchedulerLevel) (index : GroupIndex) (group : Nat)
    (children : List Nat) (turns : List Turn) : Prop
  | unplaced (noNext : tree.next? level.level = none)
  | missed {next : SchedulerLevel} {earlier later : List Nat} {child : Nat}
      {lookUps : List (LookUp Nat)} {lead missing : List Turn} {error : ProvisionError}
      (isNext : tree.next? level.level = some next)
      (split : children = earlier ++ child :: later)
      (found : List.Forall₂ (scheduler.FindsChild port next index) earlier lookUps)
      (misses : scheduler.MissesChild port next index child missing error)
      (last : turns = lead ++ lookUps.flatMap LookUp.turns ++ missing)
  | unwritable {next : SchedulerLevel} {lookUps : List (LookUp Nat)} {lead : List Turn}
      (isNext : tree.next? level.level = some next)
      (found : List.Forall₂ (scheduler.FindsChild port next index) children lookUps)
      (cannot : ¬scheduler.CanList group (lookUps.map LookUp.value))
      (last : turns = lead ++ lookUps.flatMap LookUp.turns)

inductive ListsWhole (index : Option GroupIndex) : TreeNode → Episode Outcome → Prop
  | queue {queue : QueueNode} {episode : Episode Outcome}
      (unlisted : Turn.Unlisted episode.turns) :
      ListsWhole index (.queue queue) episode
  | undiscovered {level : SchedulerLevel} {group : GroupNode} {episode : Episode Outcome}
      (missing : (index.bind fun found => found.get? level.level group.number) = none)
      (silent : Turn.submissions episode.turns = []) :
      ListsWhole index (.group level group) episode
  | childless {level : SchedulerLevel} {group : GroupNode} {episode : Episode Outcome}
      (childless : group.children = none) (unlisted : Turn.Unlisted episode.turns) :
      ListsWhole index (.group level group) episode
  /-- All children have been found, and after that the list with all of them is
  submitted. -/
  | whole {found : GroupIndex} {level next : SchedulerLevel}
      {group : GroupNode} {id : Nat} {children : List Nat} {earlier : List Turn}
      {lookUps : List (LookUp Nat)} {object : StoreObject} {name : String}
      {reply : ObjectsReply} {others : List Outcome}
      (read : index = some found)
      (discovered : found.get? level.level group.number = some id)
      (declared : group.children = some children)
      (isNext : tree.next? level.level = some next)
      (all : List.Forall₂ (scheduler.FindsChild port next found) children lookUps)
      (lists : object.ListsChildren id (lookUps.map LookUp.value))
      (count : (lookUps.map LookUp.value).length = children.length)
      (unlisted : Turn.Unlisted (earlier ++ lookUps.flatMap LookUp.turns)) :
      ListsWhole index (.group level group)
        ⟨earlier ++ lookUps.flatMap LookUp.turns ++ [.submitted [⟨.set, object⟩] reply],
          others ++ [.ofReply (groupTarget port level group ++ " children") name reply]⟩
  /-- No list is submitted, and that is recorded as a failure. -/
  | withheld {found : GroupIndex} {level : SchedulerLevel} {group : GroupNode} {id : Nat}
      {children : List Nat} {turns : List Turn} {others : List Outcome}
      {error : ProvisionError} (read : index = some found)
      (discovered : found.get? level.level group.number = some id)
      (declared : group.children = some children)
      (withheld : scheduler.Withheld port tree level found id children turns)
      (unlisted : Turn.Unlisted turns) :
      ListsWhole index (.group level group)
        ⟨turns, others ++ [.failed (groupTarget port level group ++ " children") error]⟩

end Lists

variable {scheduler : Scheduler} {names : Names} {port : Port} {tree : SchedulerTree}
  {next : SchedulerLevel} {index : GroupIndex} {turns : List Turn}

/-! ## Look-ups -/

theorem submissions_of_finds {children : List Nat} {lookUps : List (LookUp Nat)}
    (found : List.Forall₂ (scheduler.FindsChild port next index) children lookUps) :
    Turn.submissions (lookUps.flatMap LookUp.turns) = [] := by
  induction found with
  | nil => rfl
  | cons first _ induction =>
      rw [List.flatMap_cons, Turn.submissions_append, induction, List.append_nil]
      cases first <;> rfl

theorem submissions_of_misses {earlier : List Nat} {child : Nat}
    {lookUps : List (LookUp Nat)} {error : ProvisionError}
    (found : List.Forall₂ (scheduler.FindsChild port next index) earlier lookUps)
    (misses : scheduler.MissesChild port next index child turns error) :
    Turn.submissions (lookUps.flatMap LookUp.turns ++ turns) = [] := by
  rw [Turn.submissions_append, submissions_of_finds found, List.nil_append]
  cases misses <;> rfl

/-! ## Settings -/

theorem spares_groupProfile {group : Nat} {name : String} {object : StoreObject}
    (isOne : object ∈ scheduler.groupProfiles names group name) :
    SetsOne [⟨.set, object⟩] ∧ ∀ attr ∈ ["child-list", "child_count"],
      object.get? (ObjectClass.schedulerGroup.pathOf attr) = none := by
  rcases isOne with ⟨profile, -, rfl⟩
  refine ⟨⟨_, rfl, .inl ObjectClass.classPath_assemble⟩, ?_⟩
  simp only [List.forall_mem_cons, List.not_mem_nil, false_implies,
    implies_true, and_true]
  exact ⟨get?_groupObject (by decide) (by simp; decide),
    get?_groupObject (by decide) (by simp; decide)⟩

theorem spares_queueProfile {key : QueueKey} {name : String} {object : StoreObject}
    (isOne : object ∈ scheduler.queueProfiles names key name) :
    SetsOne [⟨.set, object⟩] ∧ ∀ attr ∈ ["child-list", "child_count"],
      object.get? (ObjectClass.schedulerGroup.pathOf attr) = none := by
  rcases isOne with ⟨profile, code, -, -, rfl⟩
  refine ⟨⟨_, rfl, .inr ObjectClass.classPath_assemble⟩, fun attr isAttr => ?_⟩
  refine ObjectClass.get?_assemble_of_ne ?_
  revert attr
  simp only [QueueKey.attrs, List.forall_mem_cons]
  decide

section Settings

variable {objects : String → Set StoreObject} {target : String → String}
  {profile : Option String} {outcomes : List Outcome}

theorem spares_of_profile
    (spares : ∀ name, ∀ object ∈ objects name, SetsOne [⟨.set, object⟩] ∧
      ∀ attr ∈ ["child-list", "child_count"],
        object.get? (ObjectClass.schedulerGroup.pathOf attr) = none)
    (takes : PartCourse (fun name =>
      SettingCourse (objects name) (target name)) profile turns
      outcomes) :
    (∀ batch ∈ Turn.submissions turns, SetsOne batch) ∧ Turn.Unlisted turns := by
  cases takes with
  | absent =>
      exact ⟨fun _ member => (List.not_mem_nil member).elim, Turn.unlisted_of_silent rfl⟩
  | declared takes =>
      cases takes with
      | failed =>
          exact ⟨fun _ member =>
            (List.not_mem_nil member).elim, Turn.unlisted_of_silent rfl⟩
      | replied isOne name reply =>
          rcases spares _ _ isOne with ⟨single, apart⟩
          refine ⟨fun batch member => ?_, fun batch member operation isOperation => ?_⟩
          · rwa [List.mem_singleton.mp member]
          · rw [List.mem_singleton.mp member] at isOperation
            rwa [List.mem_singleton.mp isOperation]

end Settings

/-! ## Nodes -/

/-- The children of a group that has been discovered are written whole or not at all, and
nothing that is submitted along with them has to do with children. -/
theorem listsWhole_of_children {level : SchedulerLevel} {group : GroupNode} {id : Nat}
    {profileTurns childTurns : List Turn} {profileOutcomes childOutcomes : List Outcome}
    (discovered : index.get? level.level group.number = some id)
    (unlisted : Turn.Unlisted profileTurns)
    (takes : PartCourse (scheduler.ChildrenCourse port tree level index id
      (groupTarget port level group ++ " children")) group.children childTurns
        childOutcomes) :
    (∀ batch ∈ Turn.submissions childTurns, SetsOne batch) ∧
      scheduler.ListsWhole port tree (some index) (.group level group)
        ⟨profileTurns ++ childTurns, profileOutcomes ++ childOutcomes⟩ := by
  cases declared : group.children with
  | none =>
      rw [declared] at takes
      cases takes
      refine ⟨fun _ member => (List.not_mem_nil member).elim, .childless declared ?_⟩
      exact Turn.unlisted_append unlisted (Turn.unlisted_of_silent rfl)
  | some children =>
      rw [declared] at takes
      cases takes with
      | declared takes =>
          cases takes with
          | written isNext found lists name reply =>
              have silent := submissions_of_finds found
              constructor
              · rw [Turn.submissions_append, silent]
                rintro batch member
                rw [List.mem_singleton.mp member]
                exact ⟨_, rfl, .inl lists.classPath⟩
              · rw [← List.append_assoc]
                refine .whole rfl discovered declared isNext found lists ?_ ?_
                · rw [List.length_map, found.length_eq]
                · exact Turn.unlisted_append unlisted (Turn.unlisted_of_silent silent)
          | missed isNext split found misses =>
              have silent := submissions_of_misses found misses
              refine ⟨by simp [silent], .withheld rfl discovered declared ?_ ?_⟩
              · exact .missed isNext split found misses (List.append_assoc _ _ _).symm
              · exact Turn.unlisted_append unlisted (Turn.unlisted_of_silent silent)
          | unplaced noNext error =>
              refine ⟨fun _ member => (List.not_mem_nil member).elim,
                .withheld rfl discovered declared (.unplaced noNext) ?_⟩
              exact Turn.unlisted_append unlisted (Turn.unlisted_of_silent rfl)
          | unwritable isNext found cannot error =>
              have silent := submissions_of_finds found
              refine ⟨by simp [silent],
                .withheld rfl discovered declared
                  (.unwritable isNext found cannot rfl) ?_⟩
              exact Turn.unlisted_append unlisted (Turn.unlisted_of_silent silent)

/-- Every course of a node submits single settings, and the whole child list or none. -/
theorem listsWhole_of_course {found : Option GroupIndex} {node : TreeNode}
    {outcomes : List Outcome}
    (takes : scheduler.NodeCourse names port tree found node turns outcomes) :
    (∀ batch ∈ Turn.submissions turns, SetsOne batch) ∧
      scheduler.ListsWhole port tree found node ⟨turns, outcomes⟩ := by
  cases takes with
  | undiscovered unread =>
      refine ⟨fun _ member => (List.not_mem_nil member).elim, .undiscovered ?_ rfl⟩
      rw [unread]
      rfl
  | omitted read missing | short read missing =>
      refine ⟨fun _ member => (List.not_mem_nil member).elim, .undiscovered ?_ rfl⟩
      rw [read]
      exact missing
  | queue profile =>
      rcases spares_of_profile (fun _ _ => spares_queueProfile) profile with
        ⟨single, unlisted⟩
      exact ⟨single, .queue unlisted⟩
  | group read discovered profile children =>
      subst read
      rcases spares_of_profile (fun _ _ => spares_groupProfile) profile with
        ⟨single, unlisted⟩
      rcases listsWhole_of_children discovered unlisted children with ⟨singleToo, lists⟩
      refine ⟨fun batch member => ?_, lists⟩
      rw [Turn.submissions_append] at member
      exact (List.mem_append.mp member).elim (single batch) (singleToo batch)

/-- However the store replies, all that is submitted sets one group or one queue, and the
child list of each group that is declared is submitted whole or not at all. -/
theorem applyTree_writes_child_lists_whole {State : Type}
    (scheduler : Scheduler) (names : Names) (port : Port) (tree : SchedulerTree)
    (responder : Responder State) (before : State) :
    ∃ found middle, ∃ episodes : List (Episode Outcome), ∃ after,
      (scheduler.readGroups port).run.Ends responder before found middle ∧
      (scheduler.applyTree names port tree).Ends responder before
        (discoveryOutcomes port found ++ episodes.flatMap Episode.results) after ∧
      (scheduler.applyTree names port tree).turns responder before =
        (scheduler.readGroups port).run.turns responder before ++
          episodes.flatMap Episode.turns ∧
      (∀ batch ∈ Turn.submissions
        ((scheduler.applyTree names port tree).turns responder before),
        SetsOne batch) ∧
      Turn.submissions ((scheduler.readGroups port).run.turns responder before) = [] ∧
      List.Forall₂ (scheduler.ListsWhole port tree found.toOption)
        tree.nodes episodes := by
  rcases applyTree_takes_courses scheduler names port tree responder before with
    ⟨found, middle, episodes, after, read, applied, turns, silent, courses⟩
  refine ⟨found, middle, episodes, after, read, applied, turns, ?_, silent,
    courses.imp fun _ _ takes => (listsWhole_of_course takes).2⟩
  rw [turns, Turn.submissions_append, silent, List.nil_append]
  intro batch member
  rcases List.mem_filterMap.mp member with ⟨turn, isTurn, submits⟩
  rcases List.mem_flatMap.mp isTurn with ⟨episode, isEpisode, isTurn⟩
  rcases Results.exists_left courses isEpisode with ⟨node, -, takes⟩
  exact (listsWhole_of_course takes).1 batch
    (List.mem_filterMap.mpr ⟨turn, isTurn, submits⟩)

end Scheduler

end SwitchQos
