import SwitchQos.Proofs.Store.Integrity

namespace SwitchQos

/-! The ids that the store assigns are counted up, and nothing but the counter decides
which comes next. A client may name an id of its own, even one that is still to come.
Once the counter arrives there, every creation in the class that leaves the id to the
store is rejected, and as a rejected batch also puts the counter back, this does not pass
by itself. Where clients leave the ids to come alone, each object gets a fresh one. -/

def Operation.LeavesIds (operation : Operation) : Prop :=
  operation.verb = .create → ∀ objectClass : ObjectClass,
    operation.object.classPath = objectClass.path → objectClass.allocatesId = true →
    ∀ number, Memory.firstId ≤ number → number < countOfBits 64 →
      operation.object.get? (objectClass.pathOf "id") ≠ some (Storage.uint64.word number)

namespace Contents

variable {contents after : Contents} {objectClass : ObjectClass}
  {object created : StoreObject}

/-- There is a next id, and no stored object of the class has it. -/
def NextIdFree (contents : Contents) (objectClass : ObjectClass) : Prop :=
  contents.nextId < countOfBits 64 ∧
    ∀ stored ∈ contents.ofClass objectClass,
      stored.get? (objectClass.pathOf "id") ≠ some (Storage.uint64.word contents.nextId)

instance : Decidable (contents.NextIdFree objectClass) :=
  inferInstanceAs (Decidable (_ ∧ ∀ stored ∈ contents.ofClass objectClass, _))

def withNextId (contents : Contents) (objectClass : ObjectClass) (object : StoreObject) :
    StoreObject :=
  object.insert (objectClass.pathOf "id") (Storage.uint64.word contents.nextId)

/-! ## Creating without an id -/

section Unnumbered

variable (allocates : objectClass.allocatesId = true)
  (unnumbered : object.get? (objectClass.pathOf "id") = none)

include allocates unnumbered

theorem completed?_of_unnumbered :
    contents.completed? objectClass object = some created ↔
      contents.nextId < countOfBits 64 ∧
      created = contents.withNextId objectClass object := by
  rw [completed?, if_pos (needsId_of_unnumbered allocates unnumbered), withNextId]
  split
  · rename_i room
    rw [Option.some.injEq, eq_comm]
    exact (and_iff_right room).symm
  · rename_i full
    constructor
    · intro impossible
      cases impossible
    · rintro ⟨room, -⟩
      exact absurd room full

omit unnumbered in
theorem addressed_withNextId_iff {stored : StoreObject} (plain : object.IsPlain)
    (storedPlain : stored.IsPlain) :
    addressed objectClass (contents.withNextId objectClass object) stored = true ↔
      stored.classPath = objectClass.path ∧
        stored.get? (objectClass.pathOf "id") =
          some (Storage.uint64.word contents.nextId) := by
  have single := ObjectClass.keyAttrs_of_allocatesId allocates
  have withId : StoreObject.IsPlain (contents.withNextId objectClass object) := plain
  have identified : objectClass.identity? (contents.withNextId objectClass object) =
      some [Storage.uint64.word contents.nextId] := by
    rw [ObjectClass.identity?_eq_some_singleton single, withId.lookup, withNextId,
      StoreObject.get?_insert_self]
    exact ⟨_, rfl, rfl⟩
  rw [addressed_of_identity? identified, StoreObject.entity?_eq_some_iff,
    ObjectClass.identity?_eq_some_singleton single, storedPlain.lookup]
  simp

/-- The object is stored under the next id if that is free, and only then. -/
theorem create_unnumbered_eq_ok_iff (storedPlain :
    ∀ stored ∈ contents.objects, stored.IsPlain) (plain : object.IsPlain) :
    contents.create objectClass object = .ok (created, after) ↔
      contents.NextIdFree objectClass ∧ created = contents.withNextId objectClass object ∧
        after = ⟨contents.objects ++ [created], contents.nextId + 1⟩ := by
  have has : objectClass.Has "id" :=
    .of_spec? (ObjectClass.spec?_id_of_allocatesId allocates)
  have parent : contents.hasParent objectClass (objectClass.pathOf "id")
      created = true := by
    rw [hasParent, ObjectClass.parent?_of_allocatesId allocates]
  have next : contents.idAfter objectClass object = contents.nextId + 1 := by
    rw [idAfter, if_pos (needsId_of_unnumbered allocates unnumbered)]
  have free : (∀ stored ∈ contents.objects,
      ¬addressed objectClass (contents.withNextId objectClass object) stored = true) ↔
      ∀ stored ∈ contents.ofClass objectClass,
        stored.get? (objectClass.pathOf "id") ≠
          some (Storage.uint64.word contents.nextId) := by
    simp only [mem_ofClass_iff, and_imp]
    refine forall₂_congr fun stored member => ?_
    rw [addressed_withNextId_iff allocates plain (storedPlain stored member), not_and]
  rw [create_eq_ok_iff, completed?_of_unnumbered allocates unnumbered, next, NextIdFree]
  constructor
  · rintro ⟨-, ⟨room, rfl⟩, -, apart, rfl⟩
    exact ⟨⟨room, free.mp apart⟩, rfl, rfl⟩
  · rintro ⟨⟨room, apart⟩, rfl, rfl⟩
    exact ⟨has, ⟨room, rfl⟩, parent, free.mpr apart, rfl⟩

end Unnumbered

/-! ## Ids to come -/

structure IdsAhead (contents : Contents) : Prop where
  intact : contents.Intact
  started : Memory.firstId ≤ contents.nextId
  ahead : ∀ stored ∈ contents.objects, ∀ objectClass : ObjectClass,
    stored.classPath = objectClass.path → objectClass.allocatesId = true →
    ∀ number, contents.nextId ≤ number → number < countOfBits 64 →
      stored.get? (objectClass.pathOf "id") ≠ some (Storage.uint64.word number)

theorem IdsAhead.nextIdFree (idsAhead : contents.IdsAhead)
    (allocates : objectClass.allocatesId = true)
    (room : contents.nextId < countOfBits 64) :
    contents.NextIdFree objectClass := by
  refine ⟨room, fun stored listed => ?_⟩
  rcases mem_ofClass_iff.mp listed with ⟨member, isOf⟩
  exact idsAhead.ahead stored member objectClass isOf allocates _ (Nat.le_refl _) room

theorem nextId_le_idAfter : contents.nextId ≤ contents.idAfter objectClass object := by
  rw [idAfter]
  split
  · exact Nat.le_succ _
  · exact Nat.le_refl _

theorem id_of_created_ne
    (completed : contents.completed? objectClass object = some created) {number : Nat}
    (toCome : contents.idAfter objectClass object ≤ number)
    (fits : number < countOfBits 64)
    (unnamed : object.get? (objectClass.pathOf "id") ≠
      some (Storage.uint64.word number)) :
    created.get? (objectClass.pathOf "id") ≠ some (Storage.uint64.word number) := by
  rw [completed?] at completed
  rw [idAfter] at toCome
  split at completed
  · rename_i needs
    rw [if_pos needs] at toCome
    split at completed
    · rename_i room
      cases completed
      rw [StoreObject.get?_insert_self]
      intro same
      have equal := Storage.word_injective rfl room fits (Option.some.inj same)
      omega
    · cases completed
  · cases completed
    exact unnamed

theorem IdsAhead.keeps {operation : Operation} (plain : operation.object.IsPlain)
    (leaves : operation.LeavesIds) : Keeps IdsAhead operation := by
  intro before after objectClass result isOf idsAhead carried
  have intact : after.Intact := Intact.keeps plain isOf idsAhead.intact carried
  have apart := idsAhead.intact.distinct
  rcases operation with ⟨verb, object⟩
  cases verb with
  | create =>
      rcases create_eq_ok_iff.mp carried with ⟨-, completed, -, -, rfl⟩
      have createdOf := (classPath_of_completed? completed).trans isOf
      have started : Memory.firstId ≤ before.idAfter objectClass object :=
        Nat.le_trans idsAhead.started nextId_le_idAfter
      refine ⟨intact, started,
        fun stored member otherClass otherOf allocates number toCome fits => ?_⟩
      rcases List.mem_append.mp member with old | new
      · exact idsAhead.ahead stored old otherClass otherOf allocates number
          (Nat.le_trans nextId_le_idAfter toCome) fits
      · rw [List.mem_singleton.mp new] at otherOf ⊢
        rcases ObjectClass.path_injective (createdOf.symm.trans otherOf) with rfl
        exact id_of_created_ne completed toCome fits
          (leaves rfl objectClass isOf allocates number
            (Nat.le_trans started toCome) fits)
  | set =>
      rcases (set_eq_ok_iff apart).mp carried with ⟨-, -, -, -, rfl⟩
      refine ⟨intact, idsAhead.started,
        fun changed member otherClass otherOf allocates number toCome fits => ?_⟩
      rcases List.mem_map.mp member with ⟨stored, old, rfl⟩
      rw [classPath_overwritten] at otherOf
      rw [get?_key_overwritten (idsAhead.intact.plain stored old) otherOf
        (ObjectClass.id_mem_keyAttrs_of_allocatesId allocates)]
      exact idsAhead.ahead stored old otherClass otherOf allocates number toCome fits
  | delete =>
      rcases (delete_eq_ok_iff apart).mp carried with ⟨-, -, rfl⟩
      exact ⟨intact, idsAhead.started,
        fun stored member => idsAhead.ahead stored (List.mem_of_mem_filter member)⟩

end Contents

namespace Memory

variable {memory : Memory} {objectClass : ObjectClass} {object : StoreObject}

theorem ReachedBy.idsAhead
    (reached : memory.ReachedBy fun operation =>
      operation.object.IsPlain ∧ operation.LeavesIds) : memory.contents.IdsAhead := by
  refine reached.holds ?_ fun operation both => Contents.IdsAhead.keeps both.1 both.2
  exact ⟨⟨by simp, by simp, .nil, by simp, by simp⟩, Nat.le_refl _, by simp⟩

/-- A creation that leaves the id to the store is accepted if the next id is free, and
only then. The object gets the next id, which no object of its class has. Otherwise the
store stays as it is, so the next such creation is rejected as well. As long as clients
have left the ids to come alone, the next id is free until the ids run out. -/
theorem transact_assigns_next_id
    (reached : memory.ReachedBy fun operation => operation.object.IsPlain)
    (allocates : objectClass.allocatesId = true)
    (isOf : object.classPath = objectClass.path) (plain : object.IsPlain)
    (unnumbered : object.get? (objectClass.pathOf "id") = none)
    (unruled : ∀ rule ∈ memory.rules, ¬rule.applies ⟨.create, object⟩ = true) :
    let outcome := memory.transact [⟨.create, object⟩]
    let numbered := memory.contents.withNextId objectClass object
    (outcome.1.isOk = true ↔ memory.contents.NextIdFree objectClass) ∧
    (outcome.1.isOk = true →
      outcome.1 = .ok [numbered.answer objectClass] ∧
        outcome.2.contents =
          ⟨memory.contents.objects ++ [numbered], memory.contents.nextId + 1⟩ ∧
        ∀ stored ∈ memory.contents.ofClass objectClass,
          stored.get? (objectClass.pathOf "id") ≠
            numbered.get? (objectClass.pathOf "id")) ∧
    (¬outcome.1.isOk = true → outcome.2 = memory) ∧
    (memory.ReachedBy (fun operation => operation.object.IsPlain ∧ operation.LeavesIds) →
      memory.contents.nextId < countOfBits 64 → outcome.1.isOk = true) := by
  intro outcome numbered
  have created :=
    fun result after => @Contents.create_unnumbered_eq_ok_iff memory.contents after
    objectClass object result allocates unnumbered reached.intact.plain plain
  have done := fun answers after => @transact_singleton_eq_ok_iff memory ⟨.create, object⟩
    objectClass answers after unruled isOf
  have acceptedIff : outcome.1.isOk = true ↔ memory.contents.NextIdFree objectClass := by
    rw [isOk_transact_iff]
    constructor
    · rintro ⟨answers, after, accepted⟩
      rcases (done _ _).mp accepted with ⟨result, contents, carried, -⟩
      exact ((created _ _).mp carried).1
    · intro free
      exact ⟨_, _, (done _ _).mpr ⟨_, _, (created _ _).mpr ⟨free, rfl, rfl⟩, rfl, rfl⟩⟩
  refine ⟨acceptedIff, fun accepted => ?_, transact_unchanged, fun spared room => ?_⟩
  · have free := acceptedIff.mp accepted
    have whole : outcome = _ :=
      (done _ _).mpr ⟨_, _, (created _ _).mpr ⟨free, rfl, rfl⟩, rfl, rfl⟩
    refine ⟨by rw [whole], by rw [whole],
      fun stored listed same => free.2 stored listed ?_⟩
    rw [same]
    exact StoreObject.get?_insert_self _ _ _
  · exact acceptedIff.mpr (spared.idsAhead.nextIdFree allocates room)

/-- A profile under an id that the store never assigns does not stand in the way. -/
theorem transact_assigns_next_id_apart :
    let named := ObjectClass.schedulerProfile.assemble [("id", Storage.uint64.word 5)]
    let unnamed := ObjectClass.schedulerProfile.assemble []
    let memory := ((Memory.new 0).transact [⟨.create, named⟩]).2
    memory.ReachedBy (fun operation => operation.object.IsPlain ∧ operation.LeavesIds) ∧
      unnamed.get? (ObjectClass.schedulerProfile.pathOf "id") = none ∧
      (memory.transact [⟨.create, unnamed⟩]).2.contents.objects =
        [named, ObjectClass.schedulerProfile.assemble
          [("id", Storage.uint64.word 4096)]] := by
  intro named unnamed memory
  have leaves : Operation.LeavesIds ⟨.create, named⟩ := by
    intro _ objectClass isOf _ number started fits same
    have isProfile : ObjectClass.schedulerProfile = objectClass :=
      ObjectClass.path_injective isOf
    subst isProfile
    have equal := Storage.word_injective rfl (by decide) fits (Option.some.inj same)
    rw [← equal] at started
    exact absurd started (by decide)
  have spared : memory.ReachedBy fun operation =>
      operation.object.IsPlain ∧ operation.LeavesIds := by
    refine .transact (.new 0) fun operation member => ?_
    rw [List.mem_singleton.mp member]
    exact ⟨rfl, leaves⟩
  have reached : memory.ReachedBy fun operation => operation.object.IsPlain := by
    refine .transact (.new 0) fun operation member => ?_
    rw [List.mem_singleton.mp member]
    rfl
  rcases @transact_assigns_next_id memory .schedulerProfile unnamed
    reached rfl rfl rfl rfl (by decide +kernel) with ⟨-, assigned, -, always⟩
  rcases assigned (always spared (by decide +kernel)) with ⟨-, contents, -⟩
  refine ⟨spared, rfl, ?_⟩
  rw [contents]
  decide +kernel

/-- A profile under the id that comes next: no profile can be created without an id. -/
theorem transact_assigns_next_id_refuted :
    let named := ObjectClass.schedulerProfile.assemble [("id", Storage.uint64.word 4096)]
    let unnamed := ObjectClass.schedulerProfile.assemble []
    let memory := ((Memory.new 0).transact [⟨.create, named⟩]).2
    memory.ReachedBy (fun operation => operation.object.IsPlain) ∧ memory.rules = [] ∧
      unnamed.IsPlain ∧ unnamed.get? (ObjectClass.schedulerProfile.pathOf "id") = none ∧
      memory.transact [⟨.create, unnamed⟩] =
        (.error (.rejected (.alreadyExists ObjectClass.schedulerProfile.path)),
          memory) := by
  intro named unnamed memory
  have reached : memory.ReachedBy fun operation => operation.object.IsPlain := by
    refine .transact (.new 0) fun operation member => ?_
    rw [List.mem_singleton.mp member]
    rfl
  exact ⟨reached, by decide +kernel, rfl, rfl, by decide +kernel⟩

end Memory

end SwitchQos
