import SwitchQos.Proofs.Provision.LogAgreement
import SwitchQos.Proofs.Provision.MapBinding

namespace SwitchQos

/-! What the names of profiles stand for in a run. The id of each profile that is created
is noted under its name, and as nothing that comes later changes profiles, the name stands
for a stored profile ever after: the last one of the name that was recorded as applied. -/

open Exchange

def lastApplied (recorded : List (ProfileNode × Status)) (name : String) :
    Option ProfileNode :=
  (recorded.reverse.find? fun row => row.1.tag = name ∧ row.2 = .applied).map Prod.fst

theorem lastApplied_append {recorded : List (ProfileNode × Status)}
    {row : ProfileNode × Status} {name : String} :
    lastApplied (recorded ++ [row]) name =
      if row.1.tag = name ∧ row.2 = .applied then some row.1
        else lastApplied recorded name := by
  rw [lastApplied, List.reverse_append, List.reverse_singleton, List.singleton_append,
    List.find?_cons]
  by_cases isLast : row.1.tag = name ∧ row.2 = .applied
  · simp [isLast]
  · simp [isLast, lastApplied]

/-! ## Profiles stay -/

def Operation.SparesProfiles (operation : Operation) : Prop :=
  operation.verb = .create ∨
    operation.verb = .set ∧ operation.object.classPath ≠ ObjectClass.schedulerProfile.path

theorem Adding.sparesProfiles {classes : Set ObjectClass} {batch : List Operation}
    (adding : Adding classes batch) : ∀ operation ∈ batch, operation.SparesProfiles :=
  fun operation member => .inl (adding operation member).1

theorem Footprint.Sets.sparesProfiles {footprint : Footprint} {object other : StoreObject}
    (sets : footprint.Sets object other) : (Operation.mk .set object).SparesProfiles := by
  refine .inr ⟨rfl, fun same => ?_⟩
  cases sets with
  | groupProfile | groupChildren | queueProfile =>
      cases ObjectClass.path_injective (ObjectClass.classPath_assemble.symm.trans same)
  | @portMap direction =>
      have sameClass :=
        ObjectClass.path_injective (ObjectClass.classPath_assemble.symm.trans same)
      cases direction <;> cases sameClass

/-! ## Names -/

namespace Names

variable {switchId : Nat} {recorded : List (ProfileNode × Status)} {names : Names}
  {contents : Contents}

/-- Each name stands for the profile that was recorded last under it, which is stored. -/
structure Tells (switchId : Nat) (recorded : List (ProfileNode × Status))
    (contents : Contents) (names : Names) : Prop where
  missing : ∀ name, lastApplied recorded name = none → names.profiles.get? name = none
  known : ∀ name node, lastApplied recorded name = some node →
    ∃ id, names.profiles.get? name = some id ∧
      ∃ stored ∈ contents.objects, stored.Renders switchId node id

theorem tells_nothing : Tells switchId [] contents {} where
  missing _ _ := rfl
  known _ _ impossible := by cases impossible

theorem Tells.congr {other : Names} (tells : names.Tells switchId recorded contents)
    (same : other.profiles = names.profiles) :
    other.Tells switchId recorded contents := by
  rcases tells with ⟨missing, known⟩
  rw [← same] at missing known
  exact ⟨missing, known⟩

theorem Tells.of_reaches {Result : Type} {exchange rest : Exchange Result}
    {before later : Memory} (tells : names.Tells switchId recorded before.contents)
    (submits : exchange.Submits fun batch =>
      ∀ operation ∈ batch, operation.SparesProfiles)
    (reaches : Reaches Memory.responder exchange before rest later) :
    names.Tells switchId recorded later.contents where
  missing := tells.missing
  known name node isLast := by
    rcases tells.known name node isLast with ⟨id, named, stored, member, renders⟩
    have keeps (operation : Operation) (spares : operation.SparesProfiles) :
        Contents.Keeps (fun contents => stored ∈ contents.objects) operation :=
      Contents.keeps_mem (spares.imp_right fun sets =>
        ⟨sets.1, renders.classPath ▸ sets.2⟩)
    exact ⟨id, named, stored, Memory.kept_of_submits submits
      (fun _ spares operation isOne =>
        keeps operation (spares operation isOne)) reaches member,
      renders⟩

theorem Tells.record_applied {node : ProfileNode} {id : Nat}
    (tells : names.Tells switchId recorded contents)
    (isStored : ∃ stored ∈ contents.objects, stored.Renders switchId node id) :
    (names.addProfile node.tag id).Tells switchId
      (recorded ++ [(node, .applied)]) contents := by
  constructor
  · intro name isNone
    rw [lastApplied_append] at isNone
    split at isNone
    · cases isNone
    · rename_i other
      rw [addProfile, Directory.get?_insert, if_neg fun same => other ⟨same, rfl⟩]
      exact tells.missing name isNone
  · intro name last isLast
    rw [lastApplied_append] at isLast
    rw [addProfile, Directory.get?_insert]
    split at isLast
    · rename_i same
      cases isLast
      exact ⟨id, if_pos same.1, isStored⟩
    · rename_i other
      rw [if_neg fun same => other ⟨same, rfl⟩]
      exact tells.known name last isLast

theorem Tells.record_failed {node : ProfileNode} {error : ProvisionError}
    (tells : names.Tells switchId recorded contents) :
    names.Tells switchId (recorded ++ [(node, .failed error)]) contents := by
  have same (name : String) :
      lastApplied (recorded ++ [(node, .failed error)]) name =
        lastApplied recorded name := by
    rw [lastApplied_append, if_neg (by simp)]
  constructor
  · exact fun name isNone => tells.missing name (same name ▸ isNone)
  · exact fun name last isLast => tells.known name last (same name ▸ isLast)

end Names

/-! ## Globals -/

namespace Provisioner

section Globals

variable {provisioner : Provisioner} {names last : Names} {before after : Memory}
  {recorded : List (ProfileNode × Status)} {outcomes : List Outcome}

/-- A profile is built, completed and stored under the id that is given, or nothing is
stored. -/
theorem createProfile_cases (scheduler : Scheduler) (node : ProfileNode)
    (memory : Memory) :
    (∃ error, (scheduler.createProfile node.tag node.attrTexts).run.Ends
      Memory.responder memory (.error error) memory) ∨
    ∃ (profile : Authored) (stored : StoreObject) (id : Nat) (after : Memory),
      schedulerProfile scheduler.switchId node.attrTexts = .ok profile ∧
      memory.contents.completed? .schedulerProfile profile.data = some stored ∧
      stored.Renders scheduler.switchId node id ∧
      after.contents.objects = memory.contents.objects ++ [stored] ∧
      (scheduler.createProfile node.tag node.attrTexts).run.Ends
        Memory.responder memory (.ok id)
        after := by
  rcases @Scheduler.createObject_cases memory ("scheduler profile " ++ node.tag)
      (schedulerProfile scheduler.switchId node.attrTexts) .schedulerProfile
      fun _ built => (plain_schedulerProfile built).2 with
    ⟨error, failed⟩ | ⟨profile, stored, contents, built, carried, created⟩
  · exact .inl ⟨error, failed⟩
  · rcases Contents.create_eq_ok_iff.mp carried with ⟨-, completed, -, -, rfl⟩
    rcases exists_renders built completed with ⟨id, renders⟩
    rw [(Scheduler.readId_eq_ok_iff renders.classPath).mpr ⟨renders.fits, renders.hasId⟩]
      at created
    exact .inr ⟨profile, stored, id, _, built, completed, renders, rfl, created⟩

theorem exists_stored_of_createProfile {scheduler : Scheduler}
    {node : ProfileNode} {id : Nat}
    (ends : (scheduler.createProfile node.tag node.attrTexts).run.Ends
      Memory.responder before (.ok id) after) :
    ∃ stored ∈ after.contents.objects, stored.Renders scheduler.switchId node id := by
  rcases createProfile_cases scheduler node before with
    ⟨error, failed⟩ | ⟨-, stored, given, later, -, -, renders, added, created⟩
  · cases (failed.unique ends).1
  · rcases created.unique ends with ⟨same, rfl⟩
    cases same
    refine ⟨stored, ?_, renders⟩
    rw [added]
    exact List.mem_append_right _ (List.mem_singleton.mpr rfl)

theorem tells_createProfiles {nodes : List ProfileNode}
    (tells : names.Tells provisioner.switchId recorded before.contents)
    (ends : (provisioner.createProfiles nodes names).Ends Memory.responder before
      (outcomes, last) after) :
    last.Tells provisioner.switchId (recorded ++ nodes.zip (outcomes.map Outcome.status))
      after.contents := by
  induction nodes generalizing names recorded before outcomes with
  | nil =>
      rcases ends_done_iff.mp ends with ⟨same, rfl⟩
      cases same
      rwa [List.zip_nil_left, List.append_nil]
  | cons node rest induction =>
      rw [createProfiles] at ends
      rcases ends_bind_iff.mp ends with ⟨result, middle, first, ends⟩
      rcases ends_bind_iff.mp ends with ⟨⟨others, _⟩, _, restEnds, given⟩
      rcases ends_done_iff.mp given with ⟨same, rfl⟩
      cases same
      have kept := tells.of_reaches
        (Scheduler.submits_createProfile.mono fun _ =>
          Adding.sparesProfiles) first.reaches
      rw [List.map_cons, List.zip_cons_cons, List.append_cons]
      cases result with
      | ok id =>
          exact induction (kept.record_applied
            (exists_stored_of_createProfile first)) restEnds
      | error error => exact induction kept.record_failed restEnds

theorem length_of_createMaps {nodes : List MapNode}
    (ends : (provisioner.createMaps nodes names).Ends Memory.responder before
      (outcomes, last) after) : outcomes.length = nodes.length := by
  induction nodes generalizing names before outcomes with
  | nil =>
      rcases ends_done_iff.mp ends with ⟨same, -⟩
      cases same
      rfl
  | cons node rest induction =>
      rw [createMaps] at ends
      split at ends
      · rcases ends_bind_iff.mp ends with ⟨id, middle, -, ends⟩
        rcases ends_bind_iff.mp ends with ⟨⟨others, _⟩, _, restEnds, given⟩
        rcases ends_done_iff.mp given with ⟨same, rfl⟩
        cases same
        exact congrArg Nat.succ (induction restEnds)
      · rcases ends_bind_iff.mp ends with ⟨⟨others, _⟩, _, restEnds, given⟩
        rcases ends_done_iff.mp given with ⟨same, rfl⟩
        cases same
        exact congrArg Nat.succ (induction restEnds)

end Globals

end Provisioner

end SwitchQos
