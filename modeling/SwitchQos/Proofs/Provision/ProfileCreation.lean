import SwitchQos.Proofs.Provision.ProfileRenaming
import SwitchQos.Proofs.Provision.Submissions
import SwitchQos.Proofs.Store.Listings
import SwitchQos.Proofs.Store.Numbering

namespace SwitchQos

/-! The same profiles created on two stores. The stores may have come to different
ids before, so a profile that leaves its id to the store gets one on each of them.
As long as no profile names an id that either store hands out, it is created on
both or on neither. -/

def profileIdPath : String := ObjectClass.schedulerProfile.pathOf "id"

/-! ## Creating a profile -/

namespace Contents

variable {contents after : Contents} {object created : StoreObject}

theorem create_profile_eq_ok_iff
    (storedPlain : ∀ stored ∈ contents.ofClass .schedulerProfile, stored.IsPlain)
    (plain : object.IsPlain) :
    contents.create .schedulerProfile object = .ok (created, after) ↔
      contents.completed? .schedulerProfile object = some created ∧
        (∀ stored ∈ contents.ofClass .schedulerProfile,
          stored.get? profileIdPath ≠ created.get? profileIdPath) ∧
        after = ⟨contents.objects ++ [created],
          contents.idAfter .schedulerProfile object⟩ := by
  have has : ObjectClass.schedulerProfile.Has "id" := by decide
  have addressedIff (completed : contents.completed? .schedulerProfile
    object = some created)
      (stored : StoreObject) (isPlain : stored.IsPlain) :
      ObjectClass.schedulerProfile.sameEntity stored created = true ↔
        stored.get? profileIdPath = created.get? profileIdPath := by
    rcases Option.isSome_iff_exists.mp (id_of_completed? rfl completed) with ⟨id, hasId⟩
    rw [ObjectClass.sameEntity_iff_agree]
    simp only [ObjectClass.keyAttrs, List.forall_mem_singleton, isPlain.lookup,
      (isPlain_of_completed? plain completed).lookup, hasId, profileIdPath]
    simp
  have parent : contents.hasParent .schedulerProfile profileIdPath created = true := rfl
  rw [create_eq_ok_iff]
  constructor
  · rintro ⟨-, completed, -, free, rfl⟩
    refine ⟨completed, fun stored listed same => ?_, rfl⟩
    rcases mem_ofClass_iff.mp listed with ⟨member, isOf⟩
    refine free stored member (Bool.and_eq_true_iff.mpr ⟨decide_eq_true isOf, ?_⟩)
    exact (addressedIff completed stored (storedPlain stored listed)).mpr same
  · rintro ⟨completed, free, rfl⟩
    refine ⟨has, completed, parent, fun stored member hit => ?_, rfl⟩
    rcases Bool.and_eq_true_iff.mp hit with ⟨isOf, same⟩
    have listed := mem_ofClass_iff.mpr ⟨member, of_decide_eq_true isOf⟩
    exact free stored listed
      ((addressedIff completed stored (storedPlain stored listed)).mp same)

def profileAdded? (switchId : Nat) (attrs : Directory String String)
    (contents : Contents) :
    Option (StoreObject × Contents) :=
  match schedulerProfile switchId attrs with
  | .error _ => none
  | .ok profile => (contents.create .schedulerProfile profile.data).toOption

end Contents

theorem plain_schedulerProfile {switchId : Nat} {attrs : Directory String String}
    {profile : Authored} (built : schedulerProfile switchId attrs = .ok profile) :
    profile.data.IsPlain ∧ profile.data.classPath =
      ObjectClass.schedulerProfile.path := by
  rcases Results.bind_eq_ok_iff.mp built with ⟨data, started, written⟩
  rcases onSwitch_eq_ok_iff.mp started with ⟨-, rfl⟩
  rcases Authored.setTexts_eq_ok_iff.mp written with ⟨rows, -, rfl⟩
  exact ⟨ObjectClass.keyData_assemble, ObjectClass.classPath_assemble⟩

namespace Scheduler

def readId (object : String) (answer : StoreObject) : Except ProvisionError Nat := do
  let record ← (Record.wrap answer).mapError .codec
  match ← record.id.mapError .codec with
  | some id => .ok id
  | none => .error (.malformedResponse object "create response carries no id")

theorem readId_eq_ok_iff {name : String} {created : StoreObject} {id : Nat}
    (isOf : created.classPath = ObjectClass.schedulerProfile.path) :
    readId name (created.answer .schedulerProfile) = .ok id ↔
      id < countOfBits 64 ∧ created.get? profileIdPath =
        some (Storage.uint64.word id) := by
  have found : ObjectClass.schedulerProfile.spec? "id" = some (.scalar .uint64) := rfl
  have decoded := @Record.id_answer_iff _ _ created id found ⟨rfl, rfl⟩
  refine Iff.trans ?_ decoded
  rw [readId, Record.wrap_answer isOf]
  simp only [Except.mapError, Results.ok_bind]
  cases (Record.view .schedulerProfile (created.answer .schedulerProfile)).id with
  | error cause => simp
  | ok id? => cases id? <;> simp

theorem run_readId (object : String) (answer : StoreObject) :
    (do let record ← Task.ofCodec (Record.wrap answer)
        Task.require (← Task.ofCodec record.id)
          (.malformedResponse object "create response carries no id") : Task Nat).run =
      .done (readId object answer) := by
  rw [readId]
  cases Record.wrap answer with
  | error cause => rfl
  | ok record =>
      change (do
        Task.require (← Task.ofCodec record.id)
          (.malformedResponse object "create response carries no id") : Task Nat).run =
          .done (do
          match ← record.id.mapError .codec with
          | some id => .ok id
          | none => .error (.malformedResponse object "create response carries no id"))
      cases record.id with
      | error cause => rfl
      | ok id? => cases id? <;> rfl

theorem run_createObject (object : String) (authored : Authored) :
    (createObject object (.ok authored)).run =
      .transact [⟨.create, authored.data⟩] fun reply => .done <|
        match reply with
        | .ok (answer :: _) => readId object answer
        | .ok [] => .error (.malformedResponse object "empty create response")
        | .error cause => .error (.transactionFailed object cause.message) := by
  refine congrArg (Exchange.transact _) (funext fun reply => ?_)
  rcases reply with cause | _ | ⟨answer, others⟩
  · rfl
  · rfl
  · exact run_readId object answer

theorem ends_readId {State : Type} {responder : Responder State} {before : State}
    (object : String) (answer : StoreObject) :
    (do let record ← Task.ofCodec (Record.wrap answer)
        Task.require (← Task.ofCodec record.id)
          (.malformedResponse object "create response carries no id") : Task Nat).run.Ends
      responder before (readId object answer) before := by
  rw [run_readId]
  exact rfl

theorem submit_cases {memory : Memory} {name : String} {verb : Verb}
    {data : Except CodecError Authored} {objectClass : ObjectClass}
    (isOf : ∀ authored, data = .ok authored →
      authored.data.classPath = objectClass.path) :
    (∃ error, (submit name verb data).run.Ends Memory.responder memory
      (.error error) memory) ∨
      ∃ authored result contents, data = .ok authored ∧
        memory.contents.carryOut verb objectClass authored.data = .ok (result, contents) ∧
        (submit name verb data).run.Ends Memory.responder memory
          (.ok [result.answer objectClass])
          { memory with contents, log := memory.log ++ [⟨verb, authored.data⟩] } := by
  cases data with
  | error cause => exact .inl ⟨.codec cause, rfl⟩
  | ok authored =>
      cases performed : memory.contents.performAll memory.rules
          [⟨verb, authored.data⟩] with
      | error reason =>
          exact .inl ⟨_, Task.ends_bind (Task.ends_ofCodec rfl)
            (Task.ends_transact_refused (Memory.transact_of_error performed))⟩
      | ok outcome =>
          have accepted := Memory.transact_of_ok performed
          rcases Memory.carryOut_of_transact (isOf authored rfl) accepted with
            ⟨result, contents, carried, answers, same⟩
          rw [answers, same] at accepted
          exact .inr ⟨authored, result, contents, rfl, carried,
            Task.ends_bind (Task.ends_ofCodec rfl) (Task.ends_transact accepted)⟩

theorem createObject_cases {memory : Memory} {name : String}
    {data : Except CodecError Authored} {objectClass : ObjectClass}
    (isOf : ∀ authored, data = .ok authored →
      authored.data.classPath = objectClass.path) :
    (∃ error, (createObject name data).run.Ends Memory.responder memory
      (.error error) memory) ∨
      ∃ authored created contents, data = .ok authored ∧
        memory.contents.create objectClass authored.data = .ok (created, contents) ∧
        (createObject name data).run.Ends Memory.responder memory
          (readId name (created.answer objectClass))
          { memory with contents, log := memory.log ++ [⟨.create, authored.data⟩] } := by
  rcases @submit_cases memory name .create data objectClass isOf with
    ⟨error, refused⟩ | ⟨authored, created, contents, built, carried, accepted⟩
  · exact .inl ⟨error, Task.ends_bind_iff.mpr (.inr ⟨error, refused, rfl⟩)⟩
  · exact .inr ⟨authored, created, contents, built, carried, Task.ends_bind accepted
      (Task.ends_bind (Task.ends_require_some _ _) (ends_readId _ _))⟩

theorem createProfile_ends {scheduler : Scheduler} {tag : String}
    {attrs : Directory String String} {memory : Memory} (unruled : memory.rules = []) :
    ∃ result after, (scheduler.createProfile tag attrs).run.Ends
      Memory.responder memory result
        after ∧
      ((memory.contents.profileAdded? scheduler.switchId attrs = none ∧
          (∃ error, result = .error error) ∧ after.contents = memory.contents) ∨
        ∃ created, memory.contents.profileAdded? scheduler.switchId attrs =
            some (created, after.contents) ∧
          result = readId ("scheduler profile " ++ tag)
            (created.answer .schedulerProfile)) := by
  rw [Contents.profileAdded?]
  cases built : schedulerProfile scheduler.switchId attrs with
  | error cause =>
      refine ⟨.error (.codec cause), memory, ?_, .inl ⟨rfl, ⟨_, rfl⟩, rfl⟩⟩
      rw [createProfile, built]
      rfl
  | ok profile =>
      have isOf := (plain_schedulerProfile built).2
      have submitted {result : Except ProvisionError (List StoreObject)} {after : Memory}
          (ends : (Task.transact ("scheduler profile " ++ tag)
            [⟨.create, profile.data⟩]).run.Ends Memory.responder memory result after) :
          (submit ("scheduler profile " ++ tag) .create (.ok profile)).run.Ends
            Memory.responder memory result after :=
        Task.ends_bind (Task.ends_ofCodec rfl) ends
      rw [createProfile, built]
      dsimp only
      cases made : memory.contents.create .schedulerProfile profile.data with
      | error reason =>
          rcases @Memory.exists_transact_refused _ ⟨.create, profile.data⟩ _ _
              unruled isOf made with
            ⟨error, refused⟩
          exact ⟨_, memory, Task.ends_bind_iff.mpr (.inr ⟨_, submitted
            (Task.ends_transact_refused refused), rfl⟩), .inl ⟨rfl, ⟨_, rfl⟩, rfl⟩⟩
      | ok outcome =>
          rcases outcome with ⟨created, contents⟩
          have accepted :=
            Memory.transact_of_carryOut ⟨.create, profile.data⟩ unruled isOf made
          refine ⟨readId ("scheduler profile " ++ tag) (created.answer .schedulerProfile),
            { memory with contents, log := memory.log ++ [⟨.create, profile.data⟩] },
            Task.ends_bind (submitted (Task.ends_transact accepted)) ?_,
            .inr ⟨created, rfl, rfl⟩⟩
          exact Task.ends_bind (Task.ends_require_some _ _) (ends_readId _ _)

end Scheduler

/-! ## The same profiles on two stores -/

/-- The same profile, apart from an id that the store has handed out. -/
structure StoreObject.Kin (base limit : Nat) (left right : StoreObject) : Prop where
  classPath : right.classPath = left.classPath
  others : ∀ path, path ≠ profileIdPath → right.get? path = left.get? path
  ids : (∃ value, left.get? profileIdPath = some value ∧
    right.get? profileIdPath = some value ∧
      ∀ id, base ≤ id → id < limit → value ≠ Storage.uint64.word id) ∨
    ∃ leftId rightId, (base ≤ leftId ∧ leftId < limit) ∧
    (base ≤ rightId ∧ rightId < limit) ∧
      left.get? profileIdPath = some (Storage.uint64.word leftId) ∧
      right.get? profileIdPath = some (Storage.uint64.word rightId)

theorem StoreObject.Kin.symm {base limit : Nat} {left right : StoreObject}
    (kin : left.Kin base limit right) : right.Kin base limit left where
  classPath := kin.classPath.symm
  others path apart := (kin.others path apart).symm
  ids := by
    rcases kin.ids with ⟨value, hasLeft, hasRight, named⟩ |
      ⟨leftId, rightId, leftRange, rightRange, hasLeft, hasRight⟩
    · exact .inl ⟨value, hasRight, hasLeft, named⟩
    · exact .inr ⟨rightId, leftId, rightRange, leftRange, hasRight, hasLeft⟩

def StoreObject.LeavesRange (base limit : Nat) (object : StoreObject) : Prop :=
  ∀ id, base ≤ id → id < limit →
    object.get? profileIdPath ≠ some (Storage.uint64.word id)

instance {base limit : Nat} {object : StoreObject} :
    Decidable (object.LeavesRange base limit) :=
  decidable_of_iff (∀ offset < limit - base,
      object.get? profileIdPath ≠ some (Storage.uint64.word (base + offset))) <| by
    constructor
    · intro leaves id above below
      rw [← Nat.add_sub_cancel' above]
      exact leaves (id - base) (by omega)
    · exact fun leaves offset below =>
        leaves (base + offset) (Nat.le_add_right _ _) (by omega)

namespace Contents

variable {base limit switchId : Nat} {attrs : Directory String String}
  {contents after left right : Contents} {object created : StoreObject}

/-- The ids from the range are handed out in order, and profiles get them
from nowhere else. -/
structure HandsOut (base limit : Nat) (contents : Contents) : Prop where
  plain : ∀ stored ∈ contents.ofClass .schedulerProfile, stored.IsPlain
  started : base ≤ contents.nextId
  ahead : ∀ stored ∈ contents.ofClass .schedulerProfile,
    stored.LeavesRange contents.nextId limit

theorem HandsOut.congr (handsOut : contents.HandsOut base limit)
    (same : after.ofClass .schedulerProfile = contents.ofClass .schedulerProfile)
    (later : contents.nextId ≤ after.nextId) : after.HandsOut base limit where
  plain := same ▸ handsOut.plain
  started := Nat.le_trans handsOut.started later
  ahead := by
    rw [same]
    exact fun stored listed id toCome =>
      handsOut.ahead stored listed id (Nat.le_trans later toCome)

section Create

variable (plain : object.IsPlain)
  (isOf : object.classPath = ObjectClass.schedulerProfile.path)
  (unclaimed : object.LeavesRange base limit) (fits : limit ≤ countOfBits 64)

include plain isOf

theorem ofClass_of_create (handsOut : contents.HandsOut base limit)
    (made : contents.create .schedulerProfile object = .ok (created, after)) :
    created.classPath = ObjectClass.schedulerProfile.path ∧
      after.objects = contents.objects ++ [created] ∧
      after.ofClass .schedulerProfile = contents.ofClass .schedulerProfile ++ [created] ∧
      contents.nextId ≤ after.nextId ∧ after.nextId ≤ contents.nextId + 1 := by
  rcases (create_profile_eq_ok_iff handsOut.plain plain).mp made with ⟨completed, -, rfl⟩
  have createdOf := (classPath_of_completed? completed).trans isOf
  refine ⟨createdOf, rfl, ?_, nextId_le_idAfter, ?_⟩
  · rw [ofClass, List.filter_append, List.filter_cons_of_pos (by simpa using createdOf)]
    rfl
  · rw [idAfter]
    split
    · exact Nat.le_refl _
    · exact Nat.le_succ _

include unclaimed fits

theorem HandsOut.create (handsOut : contents.HandsOut base limit)
    (made : contents.create .schedulerProfile object = .ok (created, after)) :
    after.HandsOut base limit := by
  rcases (create_profile_eq_ok_iff handsOut.plain plain).mp made with
    ⟨completed, -, isAfter⟩
  rcases ofClass_of_create plain isOf handsOut made with ⟨-, -, listed, later, -⟩
  refine ⟨?_, Nat.le_trans handsOut.started later, ?_⟩
  · rw [listed]
    intro stored member
    rcases List.mem_append.mp member with old | new
    · exact handsOut.plain stored old
    · rw [List.mem_singleton.mp new]
      exact isPlain_of_completed? plain completed
  · rw [listed]
    intro stored member id toCome below
    rcases List.mem_append.mp member with old | new
    · exact handsOut.ahead stored old id (Nat.le_trans later toCome) below
    · rw [List.mem_singleton.mp new]
      have above := Nat.le_trans handsOut.started (Nat.le_trans later toCome)
      rw [isAfter] at toCome
      exact id_of_created_ne completed toCome (Nat.lt_of_lt_of_le below fits)
        (unclaimed id above below)

omit isOf in
/-- Where a profile can be created, it can be created on the other store as well. -/
theorem exists_create_of_kin (leftHands : left.HandsOut base limit)
    (rightHands : right.HandsOut base limit) (leftRoom : left.nextId < limit)
    (rightRoom : right.nextId < limit)
    (kin : List.Forall₂ (StoreObject.Kin base limit) (left.ofClass .schedulerProfile)
      (right.ofClass .schedulerProfile))
    (made : left.create .schedulerProfile object = .ok (created, after)) :
    ∃ other otherAfter, right.create .schedulerProfile object = .ok (other, otherAfter) ∧
      created.Kin base limit other := by
  rcases (create_profile_eq_ok_iff leftHands.plain plain).mp made with
    ⟨completed, free, -⟩
  have hasId : (created.get? profileIdPath).isSome := id_of_completed? rfl completed
  have leftFits := Nat.lt_of_lt_of_le leftRoom fits
  have rightFits := Nat.lt_of_lt_of_le rightRoom fits
  simp only [create_profile_eq_ok_iff rightHands.plain plain]
  by_cases needs : needsId .schedulerProfile object = true
  · rw [completed?, if_pos needs, if_pos leftFits, Option.some.injEq] at completed
    subst completed
    rw [completed?, if_pos needs, if_pos rightFits]
    refine ⟨_, _, ⟨rfl, fun stored listed => ?_, rfl⟩, rfl, fun path apart => ?_, .inr
      ⟨left.nextId, right.nextId, ⟨leftHands.started, leftRoom⟩,
        ⟨rightHands.started, rightRoom⟩,
        StoreObject.get?_insert_self _ _ _, StoreObject.get?_insert_self _ _ _⟩⟩
    · rw [profileIdPath, StoreObject.get?_insert_self]
      exact rightHands.ahead stored listed right.nextId (Nat.le_refl _) rightRoom
    · exact (StoreObject.get?_insert_of_ne _ apart.symm _).trans
        (StoreObject.get?_insert_of_ne _ apart.symm _).symm
  · rw [completed?, if_neg needs, Option.some.injEq] at completed
    subst completed
    rw [completed?, if_neg needs]
    rcases Option.isSome_iff_exists.mp hasId with ⟨value, isValue⟩
    have apart : ∀ id, base ≤ id → id < limit → value ≠ Storage.uint64.word id := by
      intro id above below same
      exact unclaimed id above below (same ▸ isValue)
    refine ⟨_, _, ⟨rfl, fun stored listed same => ?_, rfl⟩, rfl, fun _ _ => rfl,
      .inl ⟨value, isValue, isValue, apart⟩⟩
    rcases Results.exists_left kin listed with ⟨old, isOld, isKin⟩
    rw [isValue] at same
    rcases isKin.ids with ⟨other, hasOld, hasStored, -⟩ | ⟨-, id, -,
      inRange, -, hasStored⟩
    · cases hasStored.symm.trans same
      exact free old isOld (hasOld.trans isValue.symm)
    · cases hasStored.symm.trans same
      exact apart id inRange.1 inRange.2 rfl

end Create

def SameProfile (left right : Contents) (leftId rightId : Nat) : Prop :=
  leftId < countOfBits 64 ∧ rightId < countOfBits 64 ∧
    ∃ old ∈ left.ofClass .schedulerProfile, ∃ new ∈ right.ofClass .schedulerProfile,
      old.get? profileIdPath = some (Storage.uint64.word leftId) ∧
      new.get? profileIdPath = some (Storage.uint64.word rightId) ∧
      ∀ path, path ≠ profileIdPath → new.get? path = old.get? path

theorem SameProfile.mono {leftAfter rightAfter : Contents} {leftId rightId : Nat}
    (same : left.SameProfile right leftId rightId)
    (leftKept : left.ofClass .schedulerProfile ⊆ leftAfter.ofClass .schedulerProfile)
    (rightKept : right.ofClass .schedulerProfile ⊆ rightAfter.ofClass .schedulerProfile) :
    leftAfter.SameProfile rightAfter leftId rightId := by
  rcases same with ⟨leftFits, rightFits, old, isOld, new, isNew, ids⟩
  exact ⟨leftFits, rightFits, old, leftKept isOld, new, rightKept isNew, ids⟩

structure Synced (base limit : Nat) (left right : Contents)
    (leftNames rightNames : Names) :
    Prop where
  leftHands : left.HandsOut base limit
  rightHands : right.HandsOut base limit
  kin : List.Forall₂ (StoreObject.Kin base limit) (left.ofClass .schedulerProfile)
    (right.ofClass .schedulerProfile)
  names : ∀ name, Option.Rel (left.SameProfile right) (leftNames.profiles.get? name)
    (rightNames.profiles.get? name)

section Synced

variable {leftNames rightNames : Names}

/-- Both stores create the profile, or neither does. -/
theorem Synced.profileAdded (synced : Synced base limit left right leftNames rightNames)
    (fits : limit ≤ countOfBits 64) (leftRoom : left.nextId < limit)
    (rightRoom : right.nextId < limit)
    (unclaimed : ∀ profile, schedulerProfile switchId attrs = .ok profile →
      profile.data.LeavesRange base limit) :
    (left.profileAdded? switchId attrs = none ∧
      right.profileAdded? switchId attrs = none) ∨
    ∃ created leftAfter other rightAfter,
      left.profileAdded? switchId attrs = some (created, leftAfter) ∧
      right.profileAdded? switchId attrs = some (other, rightAfter) ∧
      created.Kin base limit other ∧
      created.classPath = ObjectClass.schedulerProfile.path ∧
      created ∈ leftAfter.ofClass .schedulerProfile ∧
      other ∈ rightAfter.ofClass .schedulerProfile ∧
      Synced base limit leftAfter rightAfter leftNames rightNames ∧
      leftAfter.nextId ≤ left.nextId + 1 ∧ rightAfter.nextId ≤ right.nextId + 1 := by
  rw [profileAdded?, profileAdded?]
  cases built : schedulerProfile switchId attrs with
  | error cause => exact .inl ⟨rfl, rfl⟩
  | ok profile =>
      rcases plain_schedulerProfile built with ⟨plain, isOf⟩
      have leaves := unclaimed profile built
      dsimp only
      cases made : left.create .schedulerProfile profile.data with
      | error reason =>
          refine .inl ⟨rfl, ?_⟩
          cases madeToo : right.create .schedulerProfile profile.data with
          | error reason => rfl
          | ok outcome =>
              rcases outcome with ⟨other, rightAfter⟩
              have flipped := synced.kin.flip.imp fun _ _ kin => kin.symm
              rcases exists_create_of_kin plain leaves fits synced.rightHands
                synced.leftHands
                rightRoom leftRoom flipped madeToo with ⟨created, leftAfter, madeLeft, -⟩
              cases made.symm.trans madeLeft
      | ok outcome =>
          rcases outcome with ⟨created, leftAfter⟩
          rcases exists_create_of_kin plain leaves fits synced.leftHands synced.rightHands
            leftRoom rightRoom synced.kin made with ⟨other, rightAfter, madeToo, kin⟩
          rcases ofClass_of_create plain isOf synced.leftHands made with
            ⟨createdOf, -, leftListed, -, leftNext⟩
          rcases ofClass_of_create plain isOf synced.rightHands madeToo with
            ⟨-, -, rightListed, -, rightNext⟩
          rw [madeToo]
          refine .inr ⟨created, leftAfter, other, rightAfter, rfl, rfl, kin, createdOf,
            by simp [leftListed], by simp [rightListed],
            ⟨?_, ?_, ?_, fun name => ?_⟩, leftNext, rightNext⟩
          · exact synced.leftHands.create plain isOf leaves fits made
          · exact synced.rightHands.create plain isOf leaves fits madeToo
          · rw [leftListed, rightListed]
            exact List.rel_append synced.kin (.cons kin .nil)
          · refine rel_imp (synced.names name) fun leftId rightId same => same.mono ?_ ?_
            · exact leftListed ▸ List.subset_append_left _ _
            · exact rightListed ▸ List.subset_append_left _ _

theorem Synced.addProfile (synced : Synced base limit left right leftNames rightNames)
    {leftId rightId : Nat} (same : left.SameProfile right leftId rightId) (tag : String) :
    Synced base limit left right (leftNames.addProfile tag leftId)
      (rightNames.addProfile tag rightId) := by
  refine { synced with names := fun name => ?_ }
  rw [Names.addProfile, Names.addProfile, Directory.get?_insert, Directory.get?_insert]
  split
  · exact .some same
  · exact synced.names name

end Synced

end Contents

theorem StoreObject.Kin.readId {base limit : Nat} {left right : StoreObject}
    (kin : left.Kin base limit right) (fits : limit ≤ countOfBits 64)
    (isOf : left.classPath = ObjectClass.schedulerProfile.path) (name : String) :
    ((∃ error, Scheduler.readId name (left.answer .schedulerProfile) = .error error) ∧
      ∃ error, Scheduler.readId name (right.answer .schedulerProfile) = .error error) ∨
    ∃ leftId rightId, Scheduler.readId name (left.answer .schedulerProfile) = .ok leftId ∧
      Scheduler.readId name (right.answer .schedulerProfile) = .ok rightId := by
  have otherOf := kin.classPath.trans isOf
  rcases kin.ids with ⟨value, hasLeft, hasRight, -⟩ |
    ⟨leftId, rightId, leftRange, rightRange, hasLeft, hasRight⟩
  · have same (id : Nat) : Scheduler.readId name
      (left.answer .schedulerProfile) = .ok id ↔
        Scheduler.readId name (right.answer .schedulerProfile) = .ok id := by
      rw [Scheduler.readId_eq_ok_iff isOf, Scheduler.readId_eq_ok_iff otherOf,
        hasLeft, hasRight]
    cases readLeft : Scheduler.readId name (left.answer .schedulerProfile) with
    | ok id => exact .inr ⟨id, id, rfl, (same id).mp readLeft⟩
    | error error =>
        refine .inl ⟨⟨error, rfl⟩, ?_⟩
        cases readRight : Scheduler.readId name (right.answer .schedulerProfile) with
        | error error => exact ⟨error, rfl⟩
        | ok id => cases readLeft.symm.trans ((same id).mpr readRight)
  · exact .inr ⟨leftId, rightId,
      (Scheduler.readId_eq_ok_iff isOf).mpr
        ⟨Nat.lt_of_lt_of_le leftRange.2 fits, hasLeft⟩,
      (Scheduler.readId_eq_ok_iff otherOf).mpr
        ⟨Nat.lt_of_lt_of_le rightRange.2 fits, hasRight⟩⟩

def Names.afterProfile (names : Names) (tag : String) : Except ProvisionError Nat → Names
  | .ok id => names.addProfile tag id
  | .error _ => names

namespace Scheduler

open Exchange

variable {scheduler : Scheduler} {base limit : Nat} {left right : Memory}
  {leftNames rightNames : Names} {listing : InterfaceClass → List Port}

theorem createProfile_synced {tag : String} {attrs : Directory String String}
    (leftStands : left.Stands listing) (rightStands : right.Stands listing)
    (synced : Contents.Synced base limit left.contents right.contents
      leftNames rightNames)
    (fits : limit ≤ countOfBits 64) (leftRoom : left.contents.nextId < limit)
    (rightRoom : right.contents.nextId < limit)
    (unclaimed : ∀ profile, schedulerProfile scheduler.switchId attrs = .ok profile →
      profile.data.LeavesRange base limit) :
    ∃ leftResult leftAfter rightResult rightAfter,
      (scheduler.createProfile tag attrs).run.Ends Memory.responder left
        leftResult leftAfter ∧
      (scheduler.createProfile tag attrs).run.Ends Memory.responder right
        rightResult rightAfter ∧
      Contents.Synced base limit leftAfter.contents rightAfter.contents
        (leftNames.afterProfile tag leftResult)
          (rightNames.afterProfile tag rightResult) ∧
      leftAfter.contents.nextId ≤ left.contents.nextId + 1 ∧
      rightAfter.contents.nextId ≤ right.contents.nextId + 1 := by
  rcases @createProfile_ends scheduler tag attrs left leftStands.unruled with
    ⟨leftResult, leftAfter, leftEnds, leftOutcome⟩
  rcases @createProfile_ends scheduler tag attrs right rightStands.unruled with
    ⟨rightResult, rightAfter, rightEnds, rightOutcome⟩
  refine ⟨leftResult, leftAfter, rightResult, rightAfter, leftEnds, rightEnds, ?_⟩
  rcases synced.profileAdded fits leftRoom rightRoom unclaimed with
    ⟨leftNone, rightNone⟩ |
    ⟨created, leftContents, other, rightContents, leftSome, rightSome, kin,
      isOf, isCreated, isOther, syncedAfter, leftNext, rightNext⟩
  · rw [leftNone] at leftOutcome
    rw [rightNone] at rightOutcome
    rcases leftOutcome with ⟨-, ⟨leftError, rfl⟩, leftSame⟩ | ⟨_, impossible, -⟩
    · rcases rightOutcome with ⟨-, ⟨rightError, rfl⟩, rightSame⟩ | ⟨_, impossible, -⟩
      · rw [leftSame, rightSame]
        exact ⟨synced, Nat.le_succ _, Nat.le_succ _⟩
      · cases impossible
    · cases impossible
  · rw [leftSome] at leftOutcome
    rw [rightSome] at rightOutcome
    rcases leftOutcome with ⟨impossible, -⟩ | ⟨_, isLeft, rfl⟩
    · cases impossible
    · rcases rightOutcome with ⟨impossible, -⟩ | ⟨_, isRight, rfl⟩
      · cases impossible
      · cases isLeft
        cases isRight
        refine ⟨?_, leftNext, rightNext⟩
        rcases kin.readId fits isOf ("scheduler profile " ++ tag) with
          ⟨⟨_, leftRead⟩, ⟨_, rightRead⟩⟩ | ⟨leftId, rightId, leftRead, rightRead⟩
        · rw [leftRead, rightRead]
          exact syncedAfter
        · rw [leftRead, rightRead]
          have hasLeft := (readId_eq_ok_iff isOf).mp leftRead
          have hasRight := (readId_eq_ok_iff (kin.classPath.trans isOf)).mp rightRead
          exact syncedAfter.addProfile
            ⟨hasLeft.1, hasRight.1, created, isCreated, other, isOther,
            hasLeft.2, hasRight.2, kin.others⟩ tag

end Scheduler

/-! ## Whatever else is created

Tables take ids as well, so between two profiles of one run the next id may move on. -/

namespace Contents

variable {start before after : Contents} {count other : Nat} {operation : Operation}

structure Passes (start : Contents) (count : Nat) (after : Contents) : Prop where
  profiles : after.ofClass .schedulerProfile = start.ofClass .schedulerProfile
  later : start.nextId ≤ after.nextId
  within : after.nextId ≤ start.nextId + count

theorem passes_self : start.Passes 0 start := ⟨rfl, Nat.le_refl _, Nat.le_refl _⟩

theorem Passes.trans (first : start.Passes count before)
    (second : before.Passes other after) :
    start.Passes (count + other) after := by
  refine ⟨second.profiles.trans first.profiles, first.later.trans second.later, ?_⟩
  have := first.within
  have := second.within
  omega

theorem Passes.mono (passes : start.Passes count after) (fewer : count ≤ other) :
    start.Passes other after :=
  ⟨passes.profiles, passes.later, passes.within.trans (Nat.add_le_add_left fewer _)⟩

theorem Passes.create {objectClass : ObjectClass} {object created : StoreObject}
    (isOf : object.classPath = objectClass.path)
    (noProfile : objectClass ≠ .schedulerProfile)
    (made : before.create objectClass object = .ok (created, after)) :
    before.Passes (if objectClass.allocatesId then 1 else 0) after := by
  rcases create_eq_ok_iff.mp made with ⟨-, completed, -, -, rfl⟩
  have createdOf := (classPath_of_completed? completed).trans isOf
  refine ⟨?_, nextId_le_idAfter, ?_⟩
  · have other : created.classPath ≠ ObjectClass.schedulerProfile.path := fun same =>
      noProfile (ObjectClass.path_injective (createdOf.symm.trans same))
    rw [ofClass, List.filter_append, List.filter_cons_of_neg (by simpa using other)]
    simp [ofClass]
  · rw [idAfter, needsId]
    cases objectClass.allocatesId
    · simp
    · split <;> simp

theorem Passes.keeps (creates : operation.verb = .create) {objectClass : ObjectClass}
    (isOf : operation.object.classPath = objectClass.path)
    (isEntry : objectClass ∈ ObjectClass.ofEntries) :
    Keeps (start.Passes count) operation := by
  intro before after otherClass result samePath passes carried
  cases ObjectClass.path_injective (isOf.symm.trans samePath)
  rcases isEntry with ⟨mapType, rfl⟩
  rw [creates] at carried
  exact passes.trans (Passes.create isOf (by simp) carried)

theorem Synced.passes {base limit : Nat} {right : Contents}
    {leftNames laterNames rightNames : Names}
    (synced : Synced base limit before right leftNames rightNames)
    (passes : before.Passes count after)
    (sameNames : laterNames.profiles = leftNames.profiles) :
    Synced base limit after right laterNames rightNames where
  leftHands := synced.leftHands.congr passes.profiles passes.later
  rightHands := synced.rightHands
  kin := passes.profiles ▸ synced.kin
  names := by
    intro name
    rw [sameNames]
    exact rel_imp (synced.names name) fun _ _ same =>
      same.mono (passes.profiles ▸ List.Subset.refl _) (List.Subset.refl _)

end Contents

namespace Memory

variable {before after : Memory}

theorem passes_of_entries {Result : Type} {exchange : Exchange Result} {result : Result}
    (submits : exchange.Submits (Adding ObjectClass.ofEntries))
    (ends : exchange.Ends responder before result after) :
    before.contents.Passes 0 after.contents := by
  refine kept_of_submits submits (fun batch adding operation member => ?_) ends.reaches
    Contents.passes_self
  rcases adding operation member with ⟨creates, -, objectClass, isEntry, isOf⟩
  exact Contents.Passes.keeps creates isOf isEntry

theorem passes_transact {object : StoreObject} {objectClass : ObjectClass}
    (isOf : object.classPath = objectClass.path)
    (noProfile : objectClass ≠ .schedulerProfile) :
    before.contents.Passes 1 (before.transact [⟨.create, object⟩]).2.contents := by
  cases performed : before.contents.performAll before.rules [⟨.create, object⟩] with
  | error reason =>
      rw [transact_of_error performed]
      exact Contents.passes_self.mono (Nat.zero_le _)
  | ok outcome =>
      rw [transact_of_ok performed]
      rcases Contents.performAll_singleton_eq_ok_iff.mp performed with ⟨answer, done, -⟩
      rcases Contents.perform_eq_ok_iff.mp done with
        ⟨-, otherClass, created, samePath, carried, -⟩
      cases ObjectClass.path_injective (isOf.symm.trans samePath)
      refine (Contents.Passes.create isOf noProfile carried).mono ?_
      split <;> simp

open SwitchQos.Task in
theorem passes_createTable {mapType : MapType} {switchId : Nat}
    {result : Except ProvisionError MapTable}
    (ends : (MapTable.create mapType switchId).run.Ends responder before result after) :
    before.contents.Passes 1 after.contents := by
  rcases ends_bind_iff.mp ends with ⟨request, _, encoded, later⟩ | ⟨_, refused, -⟩
  · rcases ends_ofCodec_ok_iff.mp encoded with ⟨built, rfl⟩
    have isOf : request.classPath = (ObjectClass.mapTable mapType).path := by
      rcases TableAddress.tableObject_eq_ok_iff.mp built with ⟨-, -, rfl⟩
      exact ObjectClass.classPath_assemble
    have submitted {result : Except ProvisionError (List StoreObject)}
      {start later : Memory}
        (ends : (Task.transact (mapType.name ++ " table")
          [⟨.create, request⟩]).run.Ends responder
          start result later) : start.contents.Passes 1 later.contents := by
      rcases ends_transact_iff.mp ends with ⟨reply, isReply, -⟩
      rw [← show (start.transact [⟨.create, request⟩]).2 =
        later from congrArg Prod.snd isReply]
      exact passes_transact isOf (by simp)
    rcases ends_bind_iff.mp later with ⟨answers, middle, replied, last⟩ | ⟨_, replied, -⟩
    · refine (submitted replied).trans (passes_of_entries ?_ last)
      exact submits_require_bind fun _ => submits_ofCodec_bind fun _ _ =>
        submits_ofCodec_bind fun _ _ => submits_require_bind fun _ => trivial
    · exact submitted replied
  · rw [(Exchange.ends_done_iff.mp refused).2]
    exact Contents.passes_self.mono (Nat.zero_le _)

end Memory

namespace Provisioner

open Exchange

variable {provisioner : Provisioner} {before after : Memory} {names : Names}

theorem passes_createMap {node : MapNode} {result : Except ProvisionError Nat}
    (ends : (provisioner.createMap node).run.Ends Memory.responder before result after) :
    before.contents.Passes 1 after.contents := by
  rcases Task.ends_bind_iff.mp ends with
    ⟨table, middle, created, filled⟩ | ⟨_, created, -⟩
  · have creates := MapTable.gives_create.of_ends created table rfl
    exact (Memory.passes_createTable created).trans
      (Memory.passes_of_entries creates.submits_fill filled)
  · exact Memory.passes_createTable created

/-- Maps take at most one id each, and leave the names of profiles alone. -/
theorem passes_createMaps {nodes : List MapNode} {result : List Outcome × Names}
    (ends : (provisioner.createMaps nodes names).Ends Memory.responder
      before result after) :
    before.contents.Passes nodes.length after.contents ∧
    result.2.profiles = names.profiles := by
  induction nodes generalizing names before result with
  | nil =>
      rcases ends_done_iff.mp ends with ⟨rfl, rfl⟩
      exact ⟨Contents.passes_self, rfl⟩
  | cons node rest induction =>
      rw [createMaps] at ends
      split at ends
      · rcases ends_bind_iff.mp ends with ⟨id, middle, own, ends⟩
        rcases ends_bind_iff.mp ends with ⟨⟨outcomes, last⟩, _, others, ends⟩
        rcases ends_done_iff.mp ends with ⟨rfl, rfl⟩
        rcases induction others with ⟨passes, same⟩
        refine ⟨((passes_createMap own).trans passes).mono
          (by simp [Nat.add_comm]), same.trans ?_⟩
        cases id <;> rfl
      · rcases ends_bind_iff.mp ends with ⟨⟨outcomes, last⟩, _, others, ends⟩
        rcases ends_done_iff.mp ends with ⟨rfl, rfl⟩
        rcases induction others with ⟨passes, same⟩
        exact ⟨passes.mono (by simp), same⟩

end Provisioner

def ProfileNode.LeavesRange (switchId base limit : Nat) (node : ProfileNode) : Prop :=
  ∀ profile, schedulerProfile switchId node.attrTexts = .ok profile →
    profile.data.LeavesRange base limit

instance {switchId base limit : Nat} {node : ProfileNode} :
    Decidable (node.LeavesRange switchId base limit) :=
  match built : schedulerProfile switchId node.attrTexts with
  | .ok profile => decidable_of_iff (profile.data.LeavesRange base limit)
      (by simp [ProfileNode.LeavesRange, built])
  | .error _ => isTrue (by simp [ProfileNode.LeavesRange, built])

namespace Provisioner

open Exchange

variable {provisioner : Provisioner} {base limit : Nat} {left right before : Memory}
  {leftNames rightNames names : Names} {listing : InterfaceClass → List Port}

theorem createProfiles_cons (node : ProfileNode) (rest : List ProfileNode) :
    provisioner.createProfiles (node :: rest) names =
      (provisioner.scheduler.createProfile node.tag node.attrTexts).run.bind fun result =>
        (provisioner.createProfiles rest (names.afterProfile node.tag result)).bind
          fun later =>
          .done (.ofResult ("scheduler profile " ++ node.tag) result ::
            later.1, later.2) := by
  rw [createProfiles]
  refine congrArg (Exchange.bind _) (funext fun result => ?_)
  cases result <;> rfl

theorem createProfiles_ends_cons {node : ProfileNode} {rest : List ProfileNode}
    {middle after : Memory} {result : Except ProvisionError Nat} {outcomes : List Outcome}
    {last : Names}
    (first : (provisioner.scheduler.createProfile node.tag node.attrTexts).run.Ends
      Memory.responder before result middle)
    (others : (provisioner.createProfiles rest (names.afterProfile node.tag result)).Ends
      Memory.responder middle (outcomes, last) after) :
    (provisioner.createProfiles (node :: rest) names).Ends Memory.responder before
      (.ofResult ("scheduler profile " ++ node.tag) result :: outcomes, last) after := by
  rw [createProfiles_cons]
  exact first.bind (others.map fun later => (_ :: later.1, later.2))

/-- Profiles are created on both stores, one by one. -/
theorem createProfiles_synced {nodes : List ProfileNode}
    (leftStands : left.Stands listing) (rightStands : right.Stands listing)
    (synced : Contents.Synced base limit left.contents right.contents
      leftNames rightNames)
    (fits : limit ≤ countOfBits 64)
    (leftRoom : left.contents.nextId + nodes.length ≤ limit)
    (rightRoom : right.contents.nextId + nodes.length ≤ limit)
    (unclaimed : ∀ node ∈ nodes, node.LeavesRange provisioner.switchId base limit) :
    ∃ leftOutcomes leftLast leftAfter rightOutcomes rightLast rightAfter,
      (provisioner.createProfiles nodes leftNames).Ends Memory.responder left
        (leftOutcomes, leftLast) leftAfter ∧
      (provisioner.createProfiles nodes rightNames).Ends Memory.responder right
        (rightOutcomes, rightLast) rightAfter ∧
      Contents.Synced base limit leftAfter.contents rightAfter.contents
        leftLast rightLast ∧
      leftAfter.contents.nextId ≤ left.contents.nextId + nodes.length ∧
      rightAfter.contents.nextId ≤ right.contents.nextId + nodes.length := by
  induction nodes generalizing left right leftNames rightNames with
  | nil =>
      exact ⟨[], leftNames, left, [], rightNames, right, ends_done_iff.mpr ⟨rfl, rfl⟩,
        ends_done_iff.mpr ⟨rfl, rfl⟩, synced, Nat.le_refl _, Nat.le_refl _⟩
  | cons node rest induction =>
      rw [List.length_cons] at leftRoom rightRoom ⊢
      rcases @Scheduler.createProfile_synced provisioner.scheduler base limit
        left right leftNames
        rightNames listing node.tag node.attrTexts leftStands rightStands
          synced fits (by omega)
        (by omega) (unclaimed node List.mem_cons_self) with
        ⟨leftResult, leftMiddle, rightResult, rightMiddle, leftOne, rightOne,
          middle, leftNext, rightNext⟩
      rcases induction (leftStands.of_reaches leftOne.reaches)
        (rightStands.of_reaches rightOne.reaches) middle (by omega) (by omega)
        (fun other member => unclaimed other (List.mem_cons_of_mem _ member)) with
        ⟨leftOutcomes, leftLast, leftAfter, rightOutcomes, rightLast,
          rightAfter, leftOthers, rightOthers, last, leftWithin, rightWithin⟩
      exact ⟨_, leftLast, leftAfter, _, rightLast, rightAfter,
        createProfiles_ends_cons leftOne leftOthers,
        createProfiles_ends_cons rightOne rightOthers,
        last, by omega, by omega⟩

theorem exists_createProfiles {nodes : List ProfileNode}
    (stands : before.Stands listing) :
    ∃ outcomes last after, (provisioner.createProfiles nodes names).Ends
      Memory.responder before
        (outcomes, last) after ∧
      ∀ name ∉ nodes.map (·.tag), last.profiles.get? name = names.profiles.get? name := by
  induction nodes generalizing before names with
  | nil => exact ⟨[], names, before, ends_done_iff.mpr ⟨rfl, rfl⟩, fun _ _ => rfl⟩
  | cons node rest induction =>
      rcases @Scheduler.createProfile_ends provisioner.scheduler node.tag
        node.attrTexts before stands.unruled with ⟨result, middle, one, -⟩
      rcases @induction middle (names.afterProfile node.tag result)
        (stands.of_reaches one.reaches) with ⟨outcomes, last, after, others, same⟩
      refine ⟨_, last, after, createProfiles_ends_cons one others, fun name other => ?_⟩
      rw [List.map_cons, List.mem_cons, not_or] at other
      rw [same name other.2]
      cases result with
      | error error => rfl
      | ok id => exact Directory.get?_insert_of_ne _ (Ne.symm other.1) _

end Provisioner

end SwitchQos
