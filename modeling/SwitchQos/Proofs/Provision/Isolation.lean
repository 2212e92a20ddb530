import SwitchQos.Proofs.Provision.Requests
import SwitchQos.Proofs.Provision.TreeBuilding

namespace SwitchQos

/-! A failed binding of a tree harms no other. Two runs over the same store are compared,
the second with fewer profiles known and with more operations refused. What becomes of a
binding differs only if it binds a profile that is missing, or submits an operation that
is refused; and the stores differ only in what such bindings write. -/

/-! ## The disturbances -/

def Names.without (names : Names) (removed : String → Bool) : Names :=
  { names with profiles := ⟨names.profiles.rows.filter fun row => !removed row.1⟩ }

def Memory.refusingMore (memory : Memory) (extra : List FailureRule) : Memory :=
  { memory with rules := memory.rules ++ extra }

namespace Binding

def Submits (names : Names) (memory : Memory) (binding : Binding)
    (operation : Operation) :
    Prop :=
  ∃ batch state, (binding.record names).SubmitsAt Memory.responder memory batch state ∧
    operation ∈ batch

/-- The binding is about a profile that is removed, or submits what an extra rule
refuses. -/
def Disturbed (names : Names) (memory : Memory) (removed : String → Bool)
    (extra : List FailureRule) (binding : Binding) : Prop :=
  (∃ name, binding.profile? = some name ∧ removed name = true) ∨
    ∃ operation, binding.Submits names memory operation ∧
      ∃ rule ∈ extra, rule.applies operation = true

end Binding

namespace Names

variable {names : Names} {removed : String → Bool} {name : String}

theorem profileId_without_of_removed (isRemoved : removed name = true) :
    (names.without removed).profileId name =
      .error (.lookupMiss .schedulerProfile name) := by
  have missing : (names.without removed).profiles.get? name = none := by
    have filtered :=
      Directory.findRow_filter (fun key => !removed key) name names.profiles.rows
    rw [isRemoved] at filtered
    exact filtered
  rw [profileId, missing]

theorem profileId_without_of_kept (isKept : removed name = false) :
    (names.without removed).profileId name = names.profileId name := by
  have found : (names.without removed).profiles.get? name = names.profiles.get? name := by
    have filtered :=
      Directory.findRow_filter (fun key => !removed key) name names.profiles.rows
    rw [isKept] at filtered
    exact filtered
  rw [profileId, profileId, found]

end Names

/-! ## Requests of the second run -/

namespace Binding

open Exchange

variable {names : Names} {port : Nat} {start : Contents} {binding : Binding}
  {request : Request} {removed : String → Bool} {memory : Memory}
  {extra : List FailureRule}

theorem ComesTo.without_of_kept (comes : binding.ComesTo names port start request)
    (kept : ∀ name, binding.profile? = some name → removed name = false) :
    binding.ComesTo (names.without removed) port start request := by
  have same : binding.record (names.without removed) = binding.record names := by
    cases attempt : binding.attempt with
    | skip _ | task _ => simp only [record, attempt]
    | profile name bind =>
        have isKept := kept name (by simp only [profile?, attempt])
        simp only [record, attempt, Names.profileId_without_of_kept isKept]
  cases comes with
  | skip attempt => exact .skip attempt
  | attempt records comes => exact .attempt (same.trans records) comes

theorem comesTo_without_of_removed {name : String}
    (isProfile : binding.profile? = some name) (isRemoved : removed name = true) :
    binding.ComesTo (names.without removed) port start
      (.fail (.lookupMiss .schedulerProfile name)) := by
  cases attempt : binding.attempt with
  | skip _ | task _ =>
      rw [profile?, attempt] at isProfile
      cases isProfile
  | profile own bind =>
      rw [profile?, attempt] at isProfile
      cases isProfile
      have missed : Task.Finds port start
          (ExceptT.mk (.done ((names.without removed).profileId name)))
          (.error (.lookupMiss .schedulerProfile name)) := by
        rw [Names.profileId_without_of_removed isRemoved]
        exact Task.finds_done _
      refine .attempt ?_ (.fail (missed.bind_error bind))
      rw [record, attempt]
      rfl

/-- What the binding comes down to when some profiles are removed. -/
def requestWithout (removed : String → Bool) (binding : Binding)
    (request : Request) : Request :=
  match binding.profile? with
  | some name =>
      if removed name then .fail (.lookupMiss .schedulerProfile name) else request
  | none => request

theorem ComesTo.without (comes : binding.ComesTo names port start request)
    (removed : String → Bool) :
    binding.ComesTo (names.without removed) port start
      (binding.requestWithout removed request) := by
  rw [requestWithout]
  split
  · rename_i name isProfile
    split
    · rename_i isRemoved
      exact comesTo_without_of_removed isProfile isRemoved
    · rename_i isKept
      refine comes.without_of_kept fun other isOther => ?_
      rw [Option.some.inj (isOther.symm.trans isProfile)]
      exact Bool.eq_false_iff.mpr isKept
  · rename_i noProfile
    exact comes.without_of_kept fun name isProfile => by
      rw [noProfile] at isProfile
      cases isProfile

theorem ComesTo.submits {name : String} {object : StoreObject}
    (comes : binding.ComesTo names port memory.contents (.set name object))
    (alike : memory.Alike port memory.contents) :
    binding.Submits names memory ⟨.set, object⟩ := by
  cases comes with
  | attempt records comes =>
      cases comes with
      | set isOf spared reaches =>
          refine ⟨[⟨.set, object⟩], memory, ?_, List.mem_singleton_self _⟩
          rw [records]
          exact ⟨_, ((reaches memory alike).bind _).bind _⟩

/-- An undisturbed binding comes down to the same request, and this has the same
status. -/
theorem ComesTo.undisturbed (comes : binding.ComesTo names port memory.contents request)
    (alike : memory.Alike port memory.contents)
    (undisturbed : ¬binding.Disturbed names memory removed extra) :
    (binding.requestWithout removed request).status (memory.rules ++ extra)
      memory.contents =
        request.status memory.rules memory.contents ∧
      (binding.requestWithout removed request).accepted? (memory.rules ++ extra)
        memory.contents = request.accepted? memory.rules memory.contents := by
  have kept : binding.requestWithout removed request = request := by
    rw [requestWithout]
    split
    · rename_i name isProfile
      exact if_neg fun isRemoved => undisturbed (.inl ⟨name, isProfile, isRemoved⟩)
    · rfl
  rw [kept]
  cases request with
  | skip _ | fail _ => exact ⟨rfl, rfl⟩
  | set name object =>
      have silent : ∀ rule ∈ extra, ¬rule.applies ⟨.set, object⟩ = true :=
        fun rule isExtra applies =>
          undisturbed (.inr ⟨_, comes.submits alike, rule, isExtra, applies⟩)
      simp only [Request.status, Request.accepted?,
        Contents.refusal?_append silent, and_self]

/-- Whatever is set for the binding has been submitted in the first run. -/
theorem ComesTo.submits_of_accepted
    (comes : binding.ComesTo names port memory.contents request)
    (alike : memory.Alike port memory.contents) {rules : List FailureRule}
    {object : StoreObject}
    (accepted : request.accepted? rules memory.contents = some object) :
    binding.Submits names memory ⟨.set, object⟩ := by
  rcases Request.eq_of_accepted? accepted with ⟨name, rfl⟩
  exact comes.submits alike

theorem ComesTo.submits_of_accepted_without
    (comes : binding.ComesTo names port memory.contents request)
    (alike : memory.Alike port memory.contents) {rules : List FailureRule}
    {object : StoreObject}
    (accepted : (binding.requestWithout removed request).accepted? rules memory.contents =
      some object) : binding.Submits names memory ⟨.set, object⟩ := by
  rw [requestWithout] at accepted
  split at accepted
  · split at accepted
    · cases accepted
    · exact comes.submits_of_accepted alike accepted
  · exact comes.submits_of_accepted alike accepted

end Binding

/-! ## Stores that differ by some writes -/

namespace StoreObject

/-- But for what the given objects write, `right` is as `left`. -/
structure DiffersBy (given : Set StoreObject) (left right : StoreObject) : Prop where
  plain : left.IsPlain ∧ right.IsPlain
  classPath : right.classPath = left.classPath
  entity : right.entity? = left.entity?
  agree : ∀ path, (∀ object ∈ given, object.SameEntity left → object.lookup path = none) →
    right.get? path = left.get? path

variable {given : Set StoreObject} {left right object : StoreObject}

theorem DiffersBy.refl (plain : left.IsPlain) : DiffersBy given left left :=
  ⟨⟨plain, plain⟩, rfl, rfl, fun _ _ => rfl⟩

theorem DiffersBy.updatedBy (differs : DiffersBy given left right)
    (object : StoreObject) :
    DiffersBy given (object.updatedBy left) (object.updatedBy right) where
  plain := ⟨isPlain_updatedBy.mpr differs.plain.1, isPlain_updatedBy.mpr differs.plain.2⟩
  classPath := by rw [classPath_updatedBy, classPath_updatedBy, differs.classPath]
  entity := by
    rw [entity?_updatedBy differs.plain.1,
      entity?_updatedBy differs.plain.2, differs.entity]
  agree := by
    intro path unwritten
    have same := differs.agree path fun other isGiven isSame =>
      unwritten other isGiven
        ((sameEntity_congr (entity?_updatedBy differs.plain.1)).mpr isSame)
    simp only [get?_updatedBy, sameEntity_congr differs.entity, same]

theorem DiffersBy.updatedBy_left (differs : DiffersBy given left right)
    (isGiven : object ∈ given) : DiffersBy given (object.updatedBy left) right where
  plain := ⟨isPlain_updatedBy.mpr differs.plain.1, differs.plain.2⟩
  classPath := by rw [classPath_updatedBy, differs.classPath]
  entity := by rw [entity?_updatedBy differs.plain.1, differs.entity]
  agree := by
    intro path unwritten
    have sameTarget (other : StoreObject) :
        other.SameEntity (object.updatedBy left) ↔ other.SameEntity left :=
      sameEntity_congr (entity?_updatedBy differs.plain.1)
    simp only [sameTarget] at unwritten
    rw [differs.agree path unwritten, get?_updatedBy]
    split
    · rename_i same
      rw [unwritten object isGiven same, Option.none_or]
    · rfl

theorem DiffersBy.updatedBy_right (differs : DiffersBy given left right)
    (isGiven : object ∈ given) : DiffersBy given left (object.updatedBy right) where
  plain := ⟨differs.plain.1, isPlain_updatedBy.mpr differs.plain.2⟩
  classPath := by rw [classPath_updatedBy, differs.classPath]
  entity := by rw [entity?_updatedBy differs.plain.2, differs.entity]
  agree := by
    intro path unwritten
    rw [← differs.agree path unwritten, get?_updatedBy]
    split
    · rename_i same
      rw [unwritten object isGiven
        ((sameEntity_congr differs.entity).mp same), Option.none_or]
    · rfl

/-- What is set on both sides alike makes no difference, and what is set on one side only
is given. -/
theorem DiffersBy.rewritten {Item : Type} {items : List Item}
    {first second : Item → Option StoreObject}
    (each : ∀ item ∈ items, second item = first item ∨
      (∀ object, first item = some object → object ∈ given) ∧
        ∀ object, second item = some object → object ∈ given)
    (differs : DiffersBy given left right) :
    DiffersBy given (StoreObject.rewritten (items.filterMap first) left)
      (StoreObject.rewritten (items.filterMap second) right) := by
  induction items generalizing left right with
  | nil => exact differs
  | cons item rest induction =>
      have parts (choice : Item → Option StoreObject) :
          (item :: rest).filterMap choice = (choice item).toList ++
            rest.filterMap choice := by
        cases taken : choice item <;> simp [taken]
      have step : DiffersBy given (StoreObject.rewritten (first item).toList left)
          (StoreObject.rewritten (second item).toList right) := by
        rcases each item List.mem_cons_self with same | ⟨firstGiven, secondGiven⟩
        · rw [same]
          cases first item with
          | none => exact differs
          | some object => exact differs.updatedBy object
        · cases taken : first item with
          | none =>
              cases alsoTaken : second item with
              | none => exact differs
              | some object =>
                  exact differs.updatedBy_right (secondGiven object alsoTaken)
          | some object =>
              have written := differs.updatedBy_left (firstGiven object taken)
              cases alsoTaken : second item with
              | none => exact written
              | some other => exact written.updatedBy_right (secondGiven other alsoTaken)
      rw [parts, parts, rewritten_append, rewritten_append]
      exact induction (fun other member =>
        each other (List.mem_cons_of_mem _ member)) step

end StoreObject

/-! ## Two runs -/

namespace Scheduler

open Binding

variable {scheduler : Scheduler} {names : Names} {port : Port} {tree : SchedulerTree}
  {memory : Memory}

/-- A tree is applied twice to the same store, the second time with some profiles removed
and some more operations refused. Both runs report the same targets in the same order, the
outcomes of undisturbed bindings are the same, and the stores that are left differ only in
attributes that are written by disturbed ones. -/
theorem applyTree_isolates_failures (available : memory.unavailable = 0)
    (provisionable : memory.contents.Provisionable scheduler.switchId port.ifindex)
    (removed : String → Bool) (extra : List FailureRule) :
    ∃ discovered bindings first firstAfter second secondAfter,
      (scheduler.readGroups port).run.Ends Memory.responder memory discovered memory ∧
      scheduler.treeBindings port tree discovered = bindings ∧
      (scheduler.applyTree names port tree).Ends Memory.responder memory
        first firstAfter ∧
      (scheduler.applyTree (names.without removed) port tree).Ends Memory.responder
        (memory.refusingMore extra) second secondAfter ∧
      first.map Outcome.target = bindings.map Binding.target ∧
      second.map Outcome.target = bindings.map Binding.target ∧
      (∀ (place : Nat) (binding : Binding), bindings[place]? = some binding →
        ¬binding.Disturbed names memory removed extra → second[place]? = first[place]?) ∧
      secondAfter.contents.nextId = firstAfter.contents.nextId ∧
      List.Forall₂ (StoreObject.DiffersBy
        {object | ∃ binding ∈ bindings, binding.Disturbed names memory removed extra ∧
          binding.Submits names memory ⟨.set, object⟩})
        firstAfter.contents.objects secondAfter.contents.objects := by
  have alike : memory.Alike port.ifindex memory.contents :=
    Memory.alike_self available provisionable.plain
  have secondAlike : (memory.refusingMore extra).Alike port.ifindex memory.contents :=
    ⟨alike.available, alike.objects⟩
  choose! request comes using exists_comesTo_treeBindings names provisionable tree
  have secondComes := fun binding member => (comes binding member).without removed
  rcases applyTree_ends provisionable.distinct comes alike with
    ⟨firstAfter, firstEnds, -, -, firstContents⟩
  rcases applyTree_ends provisionable.distinct secondComes secondAlike with
    ⟨secondAfter, secondEnds, -, -, secondContents⟩
  refine ⟨_, _, _, firstAfter, _, secondAfter,
    readGroups_finds memory alike, rfl, firstEnds,
    secondEnds, ?_, ?_, ?_, ?_, ?_⟩
  · simp only [List.map_map, Function.comp_def, Binding.outcome]
  · simp only [List.map_map, Function.comp_def, Binding.outcome]
  · intro place binding isBinding undisturbed
    have member := List.mem_of_getElem? isBinding
    have same := ((comes binding member).undisturbed alike undisturbed).1
    simp only [List.getElem?_map, isBinding, Option.map_some, Binding.outcome]
    exact congrArg (fun status => some (Outcome.mk binding.target status)) same
  · rw [firstContents, secondContents]
    rfl
  · rw [firstContents, secondContents]
    refine List.forall₂_map_left_iff.mpr (List.forall₂_map_right_iff.mpr
      (List.forall₂_same.mpr fun stored member => ?_))
    refine .rewritten (fun binding isBinding => ?_)
      (.refl (provisionable.plain stored member))
    by_cases disturbed : binding.Disturbed names memory removed extra
    · have made := comes binding isBinding
      exact .inr ⟨fun object accepted =>
          ⟨binding, isBinding, disturbed, made.submits_of_accepted alike accepted⟩,
        fun object accepted =>
          ⟨binding, isBinding, disturbed,
            made.submits_of_accepted_without alike accepted⟩⟩
    · exact .inl ((comes binding isBinding).undisturbed alike disturbed).2

/-- A profile is removed and another cannot be bound, and the children
between them are. -/
theorem applyTree_isolates_failures_children :
    let names := (({} : Names).addProfile "gold" 6).addProfile "fair" 7
    let port : Port := ⟨"Ethernet0", 1, InterfaceClass.frontPanel.typeName⟩
    let tree : SchedulerTree :=
      ⟨[{ level := 0, groups :=
        [{ number := 0, profile := some "gold", children := some [0] }] },
        { level := 1, leaf := true,
          queues := [{ queueType := "UCAST", number := 0, profile := some "fair" }] }]⟩
    let removed := fun name => name == "gold"
    let extra : List FailureRule := [⟨.set, ObjectClass.queue.path, none⟩]
    ∃ (bindings : List Binding) (first second : List Outcome)
    (firstAfter secondAfter : Memory),
      (applyTree ⟨0⟩ names port tree).Ends Memory.responder switchWithQueue
        first firstAfter ∧
      (applyTree ⟨0⟩ (names.without removed) port tree).Ends Memory.responder
        (switchWithQueue.refusingMore extra) second secondAfter ∧
      first.map Outcome.isFailure = [false, false, false] ∧
      second.map Outcome.isFailure = [true, false, true] ∧
      first.map Outcome.target = bindings.map Binding.target ∧
      List.Forall₂ (StoreObject.DiffersBy
        {object | ∃ binding ∈ bindings,
          binding.Disturbed names switchWithQueue removed extra ∧
          binding.Submits names switchWithQueue ⟨.set, object⟩})
        firstAfter.contents.objects secondAfter.contents.objects := by
  intro names port tree removed extra
  have firstFailures : ((applyTree ⟨0⟩ names port tree).run Memory.responder
      switchWithQueue).1.map (fun outcomes => outcomes.map Outcome.isFailure) =
      some [false, false, false] := by
    decide +kernel
  have secondFailures : ((applyTree ⟨0⟩ (names.without removed) port tree).run
    Memory.responder
      (switchWithQueue.refusingMore extra)).1.map
        (fun outcomes => outcomes.map Outcome.isFailure) = some [true, false, true] := by
    decide +kernel
  rcases @applyTree_isolates_failures ⟨0⟩ names port tree switchWithQueue
    serves_switchWithQueue.available serves_switchWithQueue.provisionable
    removed extra with
    ⟨-, bindings, first, firstAfter, second, secondAfter, -, -, firstEnds,
      secondEnds, targets, -, -, -, differ⟩
  rw [firstEnds] at firstFailures
  rw [secondEnds] at secondFailures
  exact ⟨bindings, first, second, firstAfter, secondAfter, firstEnds, secondEnds,
    Option.some.inj firstFailures, Option.some.inj secondFailures, targets, differ⟩

end Scheduler

end SwitchQos
