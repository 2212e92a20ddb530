import SwitchQos.Proofs.Provision.ProfileRenaming
import SwitchQos.Proofs.Store.Listings
import SwitchQos.Store.Topology

namespace SwitchQos

/-! What a store holds that is seeded from a topology. Each port has its own
objects, each of them once; a group gets an id that no group has had, and nothing is
bound to a profile. -/

namespace Memory.Seeding

variable {Result Other Item : Type} {before : Memory → Prop}
  {after : Result → Memory → Prop}

/-- Begun in such a store, a part of seeding that does not fail has such an outcome. -/
def Ensures (before : Memory → Prop) (part : Seeding Result)
    (after : Result → Memory → Prop) :
    Prop :=
  ∀ start result last, before start →
    (part.run.run start : Except CodecError Result × Memory) = (.ok result, last) →
      after result last

theorem ensures_pure {value : Result}
    (holds : ∀ memory, before memory → after value memory) :
    Ensures before (pure value) after := by
  intro start result last begins ran
  cases ran
  exact holds _ begins

theorem ensures_bind {middle : Other → Memory → Prop} {part : Seeding Other}
    {next : Other → Seeding Result} (first : Ensures before part middle)
    (last : ∀ value, Ensures (middle value) (next value) after) :
    Ensures before (part >>= next) after := by
  intro start result final begins ran
  rw [ExceptT.run_bind, StateT.run_bind] at ran
  cases outcome : part.run.run start with
  | mk given middle =>
      simp only [outcome, bind] at ran
      cases given with
      | ok value =>
          exact last value middle result final
            (first start value middle begins outcome) ran
      | error cause => cases ran

theorem ensures_get_bind {next : Memory → Seeding Result}
    (later : ∀ memory, Ensures before (next memory) after) :
    Ensures before (get >>= next) after := by
  have asked : Ensures before (get : Seeding Memory) fun _ => before := by
    intro start result last begins ran
    cases ran
    exact begins
  exact ensures_bind asked later

theorem ensures_modify {change : Memory → Memory} {holds : Unit → Memory → Prop}
    (each : ∀ memory, before memory → holds () (change memory)) :
    Ensures before (modify change : Seeding Unit) holds := by
  intro start result last begins ran
  cases ran
  exact each _ begins

theorem ensures_takeId {holds : Nat → Memory → Prop}
    (each : ∀ memory, before memory → holds memory.contents.nextId memory.takeId.2) :
    Ensures before (modifyGet takeId : Seeding Nat) holds := by
  intro start result last begins ran
  cases ran
  exact each _ begins

theorem ensures_lift_bind {built : Except CodecError Other}
    {next : Other → Seeding Result}
    (later : ∀ value, built = .ok value → Ensures before (next value) after) :
    Ensures before (liftM built >>= next) after := by
  cases built with
  | ok value => exact later value rfl
  | error cause =>
      intro start result last begins ran
      cases ran

/-! ### Loops

`Holds` says what is left to be done. -/

theorem ensures_forIn {Holds : List Item → Memory → Prop}
    {body : Item → PUnit → Seeding (ForInStep PUnit)}
    (each : ∀ item rest, Ensures (Holds (item :: rest)) (body item ⟨⟩) fun step memory =>
      step = .yield ⟨⟩ ∧ Holds rest memory)
    (items : List Item) :
    Ensures (Holds items) (forIn items PUnit.unit body) fun _ => Holds [] := by
  induction items with
  | nil => exact ensures_pure fun _ holds => holds
  | cons item rest induction =>
      rw [List.forIn_cons]
      refine ensures_bind (each item rest) fun step => ?_
      rintro start result last ⟨rfl, holds⟩ ran
      exact induction start result last holds ran

theorem ensures_forM {Holds : List Item → Memory → Prop} {step : Item → Seeding PUnit}
    (each : ∀ item rest, Ensures (Holds (item :: rest)) (step item) fun _ => Holds rest)
    (items : List Item) : Ensures (Holds items) (items.forM step) fun _ => Holds [] := by
  induction items with
  | nil => exact ensures_pure fun _ holds => holds
  | cons item rest induction =>
      exact ensures_bind (each item rest) fun _ => induction

theorem ensures_mapM {Holds : List Item → List Result → Memory → Prop}
    {step : Item → Seeding Result}
    (each : ∀ item rest done,
      Ensures (Holds (item :: rest) done) (step item) fun result =>
      Holds rest (done ++ [result]))
    (items : List Item) (done : List Result) :
    Ensures (Holds items done) (items.mapM step) fun results =>
      Holds [] (done ++ results) := by
  induction items generalizing done with
  | nil =>
      rw [List.mapM_nil]
      exact ensures_pure fun _ holds => by rwa [List.append_nil]
  | cons item rest induction =>
      rw [List.mapM_cons]
      refine ensures_bind (each item rest done) fun result => ?_
      refine ensures_bind (induction (done ++ [result])) fun results => ?_
      exact ensures_pure fun _ holds => by rwa [List.append_assoc] at holds

end Memory.Seeding

/-! ## Places

A port has an object for each direction, and queues with addresses of their own. -/

inductive Place where
  | ofPort (direction : Direction) (port : Nat)
  | ofQueue (key : QueueKey)
  deriving DecidableEq

namespace Place

def port : Place → Nat
  | .ofPort _ port => port
  | .ofQueue key => key.port

def Holds : Place → StoreObject → Prop
  | .ofPort direction port, stored =>
      stored.classPath = direction.objectClass.path ∧ stored.port? = some port
  | .ofQueue key, stored => stored.IsQueue key

variable {place other : Place} {object stored : StoreObject} {objectClass : ObjectClass}

theorem Holds.unique (holds : place.Holds stored) (holdsToo : other.Holds stored) :
    other = place := by
  cases place with
  | ofPort direction port =>
      cases other with
      | ofPort otherDirection otherPort =>
          have sameClass := ObjectClass.path_injective (holds.1.symm.trans holdsToo.1)
          have samePort := Option.some.inj (holds.2.symm.trans holdsToo.2)
          subst samePort
          cases direction <;> cases otherDirection <;> first | rfl | cases sameClass
      | ofQueue key =>
          have sameClass := ObjectClass.path_injective (holds.1.symm.trans holdsToo.1)
          cases direction <;> cases sameClass
  | ofQueue key =>
      cases other with
      | ofPort direction port =>
          have sameClass := ObjectClass.path_injective (holds.1.symm.trans holdsToo.1)
          cases direction <;> cases sameClass
      | ofQueue otherKey =>
          rcases holds with ⟨-, hasPort, hasType, hasNumber⟩
          rcases holdsToo with ⟨-, hasPortToo, hasTypeToo, hasNumberToo⟩
          rcases key with ⟨port, queueType, number⟩
          rcases otherKey with ⟨otherPort, otherType, otherNumber⟩
          cases hasPort.symm.trans hasPortToo
          cases hasType.symm.trans hasTypeToo
          cases hasNumber.symm.trans hasNumberToo
          rfl

theorem Holds.port? (holds : place.Holds stored) : stored.port? = some place.port := by
  cases place with
  | ofPort direction port => exact holds.2
  | ofQueue key =>
      rw [StoreObject.port?_eq holds.1]
      exact holds.2.1

theorem Holds.congr (holds : place.Holds object) (same : object.SameEntity stored) :
    place.Holds stored := by
  rcases StoreObject.sameEntity_iff.mp same with ⟨-, sameEntity⟩
  cases place with
  | ofPort direction port =>
      have isKey : "port-id" ∈ direction.objectClass.keyAttrs := by
        cases direction <;> decide
      refine ⟨?_, (StoreObject.port?_of_sameEntity same holds.1 isKey).trans holds.2⟩
      rcases same with ⟨entity, given, found⟩
      exact (StoreObject.entity?_eq_some_iff.mp found).1.trans
        ((StoreObject.entity?_eq_some_iff.mp given).1.symm.trans holds.1)
  | ofQueue key => exact StoreObject.IsQueue.congr holds sameEntity

theorem Holds.not_group (holds : place.Holds stored) (key : List StoreValue) :
    stored.entity? ≠ some ⟨.schedulerGroup, key⟩ := by
  intro isGroup
  have groupOf := (StoreObject.entity?_eq_some_iff.mp isGroup).1
  cases place with
  | ofPort direction port =>
      have sameClass := ObjectClass.path_injective (holds.1.symm.trans groupOf)
      cases direction <;> cases sameClass
  | ofQueue key => cases ObjectClass.path_injective (holds.1.symm.trans groupOf)

end Place

/-! ## Stages

What holds of the store while it is seeded: it has objects of some ports, and of these
some places are still to be taken. -/

structure Memory.Seeded (owners : List Nat) (memory : Memory) : Prop where
  unruled : memory.rules = []
  available : memory.unavailable = 0
  plain : ∀ stored ∈ memory.contents.objects, stored.IsPlain
  distinct : Contents.Distinct memory.contents.objects
  owned : ∀ stored ∈ memory.contents.objects, ∃ port ∈ owners, stored.port? = some port
  unbound : ∀ stored ∈ memory.contents.objects, ∀ objectClass : ObjectClass,
    objectClass.ofTree = true → stored.classPath = objectClass.path →
      stored.get? (objectClass.pathOf "scheduler-profile-id") = none
  ahead : ∀ id, memory.contents.nextId ≤ id → id < countOfBits 64 →
    ∀ stored ∈ memory.contents.objects,
      stored.entity? ≠ some ⟨.schedulerGroup, [Storage.uint64.word id]⟩

def Contents.Vacant (places : List Place) (contents : Contents) : Prop :=
  places.Nodup ∧ ∀ place ∈ places, ∀ stored ∈ contents.objects, ¬place.Holds stored

def Contents.Reserves (ids : List Nat) (contents : Contents) : Prop :=
  ids.Nodup ∧ ∀ id ∈ ids, id < contents.nextId ∧
    (id < countOfBits 64 → ∀ stored ∈ contents.objects,
      stored.entity? ≠ some ⟨.schedulerGroup, [Storage.uint64.word id]⟩)

namespace Memory

variable {owners ids : List Nat} {places rest : List Place} {place : Place}
  {memory : Memory} {objectClass : ObjectClass}
  {values : List (String × StoreValue)} {port id : Nat}

theorem Seeded.takeId (seeded : memory.Seeded owners) : memory.takeId.2.Seeded owners :=
  { seeded with ahead := fun id ahead => seeded.ahead id (Nat.le_of_succ_le ahead) }

theorem Seeded.seed (seeded : memory.Seeded owners) (owner : port ∈ owners)
    (onPort : (objectClass.assemble values).port? = some port)
    (unbound : ∀ row ∈ values, row.1 ≠ "scheduler-profile-id" ∧ objectClass.Has row.1)
    (free : ∀ stored ∈ memory.contents.objects,
      ¬(objectClass.assemble values).SameEntity stored)
    (known : ∀ id, memory.contents.nextId ≤ id → id < countOfBits 64 →
      (objectClass.assemble values).entity? ≠
        some ⟨.schedulerGroup, [Storage.uint64.word id]⟩) :
    (memory.seed (objectClass.assemble values)).Seeded owners where
  unruled := seeded.unruled
  available := seeded.available
  plain := by
    intro stored member
    rcases List.mem_append.mp member with old | new
    · exact seeded.plain stored old
    · rw [List.mem_singleton.mp new]
      exact ObjectClass.keyData_assemble
  distinct :=
    seeded.distinct.append ObjectClass.classPath_assemble fun stored member hit =>
    free stored member
      ((Contents.addressed_iff_sameEntity ObjectClass.classPath_assemble).mp hit)
  owned := by
    intro stored member
    rcases List.mem_append.mp member with old | new
    · exact seeded.owned stored old
    · rw [List.mem_singleton.mp new]
      exact ⟨port, owner, onPort⟩
  unbound := by
    intro stored member otherClass ofTree isOf
    rcases List.mem_append.mp member with old | new
    · exact seeded.unbound stored old otherClass ofTree isOf
    · rw [List.mem_singleton.mp new] at isOf ⊢
      cases ObjectClass.path_injective (ObjectClass.classPath_assemble.symm.trans isOf)
      have has : objectClass.Has "scheduler-profile-id" := by
        cases objectClass <;> first | decide | cases ofTree
      exact ObjectClass.get?_assemble_of_ne fun row isRow =>
        ObjectClass.pathOf_ne has (unbound row isRow).2 (unbound row isRow).1.symm
  ahead := by
    intro id ahead fits stored member
    rcases List.mem_append.mp member with old | new
    · exact seeded.ahead id ahead fits stored old
    · rw [List.mem_singleton.mp new]
      exact known id ahead fits

structure Stage (owners : List Nat) (places : List Place) (memory : Memory) : Prop where
  seeded : memory.Seeded owners
  vacant : memory.contents.Vacant places

theorem Stage.takeId (stage : memory.Stage owners places) :
    memory.takeId.2.Stage owners places :=
  ⟨stage.seeded.takeId, stage.vacant⟩

theorem Stage.seed (stage : memory.Stage owners (place :: rest))
    (owner : place.port ∈ owners)
    (unbound : ∀ row ∈ values, row.1 ≠ "scheduler-profile-id" ∧ objectClass.Has row.1)
    (holds : place.Holds (objectClass.assemble values)) :
    (memory.seed (objectClass.assemble values)).Stage owners rest := by
  rcases List.nodup_cons.mp stage.vacant.1 with ⟨apart, restApart⟩
  refine ⟨stage.seeded.seed owner holds.port? unbound (fun stored member same => ?_)
    (fun id _ _ => holds.not_group _), restApart,
    fun other isOther stored member holdsToo => ?_⟩
  · exact stage.vacant.2 place List.mem_cons_self stored member (holds.congr same)
  · rcases List.mem_append.mp member with old | new
    · exact stage.vacant.2 other (List.mem_cons_of_mem _ isOther) stored old holdsToo
    · rw [List.mem_singleton.mp new] at holdsToo
      rw [holds.unique holdsToo] at isOther
      exact apart isOther

theorem Stage.seedGroup (stage : memory.Stage owners places) (owner : port ∈ owners)
    (reserves : memory.contents.Reserves (id :: ids)) (fits : id < countOfBits 64)
    (onPort : (ObjectClass.schedulerGroup.assemble values).port? = some port)
    (isGroup : (ObjectClass.schedulerGroup.assemble values).entity? =
      some ⟨.schedulerGroup, [Storage.uint64.word id]⟩)
    (unbound : ∀ row ∈ values,
      row.1 ≠ "scheduler-profile-id" ∧ ObjectClass.schedulerGroup.Has row.1) :
    (memory.seed (ObjectClass.schedulerGroup.assemble values)).Stage owners places ∧
      (memory.seed (ObjectClass.schedulerGroup.assemble values)).contents.Reserves
        ids := by
  rcases List.nodup_cons.mp reserves.1 with ⟨apart, idsApart⟩
  rcases reserves.2 id List.mem_cons_self with ⟨handedOut, free⟩
  have other {number : Nat} (different : number ≠ id)
      (numberFits : number < countOfBits 64) :
      (ObjectClass.schedulerGroup.assemble values).entity? ≠
        some ⟨.schedulerGroup, [Storage.uint64.word number]⟩ := by
    intro isNumber
    have sameWord : Storage.uint64.word number = Storage.uint64.word id := by
      simpa using isNumber.symm.trans isGroup
    exact different (@Storage.word_injective .uint64 rfl number id
      numberFits fits sameWord)
  refine ⟨⟨stage.seeded.seed owner onPort unbound (fun stored member same => ?_)
    (fun number ahead numberFits => other (by omega) numberFits), stage.vacant.1,
    fun place isPlace stored member holds => ?_⟩, idsApart, fun number member => ?_⟩
  · exact free fits stored member ((StoreObject.sameEntity_iff.mp same).2.trans isGroup)
  · rcases List.mem_append.mp member with old | new
    · exact stage.vacant.2 place isPlace stored old holds
    · rw [List.mem_singleton.mp new] at holds
      exact holds.not_group _ isGroup
  · rcases reserves.2 number (List.mem_cons_of_mem _ member) with ⟨numberOut, numberFree⟩
    refine ⟨numberOut, fun numberFits stored isStored => ?_⟩
    rcases List.mem_append.mp isStored with old | new
    · exact numberFree numberFits stored old
    · rw [List.mem_singleton.mp new]
      exact other (fun same => apart (same ▸ member)) numberFits

theorem Seeded.reserves (seeded : memory.Seeded owners)
    (reserves : memory.contents.Reserves ids) :
    memory.takeId.2.contents.Reserves (ids ++ [memory.contents.nextId]) := by
  refine ⟨?_, fun id member => ?_⟩
  · refine List.nodup_append.mpr ⟨reserves.1, by simp, fun id member other isNext => ?_⟩
    rw [List.mem_singleton.mp isNext]
    exact (reserves.2 id member).1.ne
  · rcases List.mem_append.mp member with old | new
    · exact ⟨Nat.lt_succ_of_lt (reserves.2 id old).1, (reserves.2 id old).2⟩
    · rw [List.mem_singleton.mp new]
      exact ⟨Nat.lt_succ_self _, seeded.ahead _ (Nat.le_refl _)⟩

/-! ## Parts of seeding -/

open Seeding

theorem seededGroup_eq_ok {switchId level : Nat} {group : StoreObject}
    (built : seededGroup switchId port level id = .ok group) :
    id < countOfBits 64 ∧ ∃ values, group = ObjectClass.schedulerGroup.assemble values ∧
      group.port? = some port ∧
      group.entity? = some ⟨.schedulerGroup, [Storage.uint64.word id]⟩ ∧
      ∀ row ∈ values, row.1 ≠ "scheduler-profile-id" ∧
      ObjectClass.schedulerGroup.Has row.1 := by
  have portSpec : ObjectClass.schedulerGroup.spec? "port-id" =
    some (.scalar .uint32) := rfl
  have levelSpec : ObjectClass.schedulerGroup.spec? "level" =
    some (.scalar .uint32) := rfl
  have countSpec : ObjectClass.schedulerGroup.spec? "child_count" =
    some (.scalar .uint32) := rfl
  simp only [seededGroup, Results.bind_eq_ok_iff, schedulerGroup_eq_ok_iff, and_assoc,
    exists_and_left, exists_eq_left, Authored.set_uint_eq_ok_iff portSpec ⟨rfl, rfl⟩,
    Authored.set_uint_eq_ok_iff levelSpec ⟨rfl, rfl⟩,
    Authored.set_uint_eq_ok_iff countSpec ⟨rfl, rfl⟩, Except.ok.injEq] at built
  rcases built with ⟨-, fits, portFits, -, -, rfl⟩
  let rows :=
    [("child_count", Storage.uint32.word 0), ("level", Storage.uint32.word level),
    ("port-id", Storage.uint32.word port)]
  have hasAll : ∀ row ∈ rows, ObjectClass.schedulerGroup.Has row.1 := by
    simp [rows]
    decide
  have plain : (groupObject switchId id rows).IsPlain := ObjectClass.keyData_assemble
  refine ⟨fits, _, rfl, ?_,
    @entity?_groupObject switchId id rows hasAll (by simp [rows, Directory.findRow]), ?_⟩
  · refine (StoreObject.port?_eq ObjectClass.classPath_assemble).trans ?_
    refine (plain.number?_eq_some_iff portSpec ⟨rfl, rfl⟩).mpr ⟨portFits, ?_⟩
    rw [get?_groupObject (by decide) hasAll]
    simp [rows, Directory.findRow]
    rfl
  · simp
    decide

theorem holds_portObject {direction : Direction} {switchId : Nat}
    (fits : port < countOfBits 32) :
    (Place.ofPort direction port).Holds (direction.objectClass.assemble
      [("port-id", Storage.uint32.word port),
        ("switch-id", Storage.uint32.word switchId)]) := by
  have spec : direction.objectClass.spec? "port-id" = some (.scalar .uint32) := by
    cases direction <;> rfl
  have isPort : direction.objectClass.ofPort = true := by cases direction <;> rfl
  have others : direction.objectClass.Has "switch-id" := by cases direction <;> decide
  refine ⟨ObjectClass.classPath_assemble, ?_⟩
  rw [StoreObject.port?_eq ObjectClass.classPath_assemble, if_pos isPort,
    StoreObject.IsPlain.number?_eq_some_iff ObjectClass.keyData_assemble spec ⟨rfl, rfl⟩,
    ObjectClass.get?_assemble (.of_spec? spec) (by simpa using ⟨.of_spec? spec, others⟩)]
  exact ⟨fits, rfl⟩

theorem ensures_addPortObjects (owner : port ∈ owners) :
    Ensures (Stage owners (.ofPort .ingress port :: .ofPort .egress port :: rest))
      (addPortObjects port) fun _ => Stage owners rest := by
  have loop := @ensures_forIn Direction (fun directions => Stage owners
    (directions.map (Place.ofPort · port) ++ rest))
  refine ensures_get_bind fun memory => ensures_bind (loop (fun direction others => ?_)
    [.ingress, .egress]) fun _ => ensures_pure fun _ stage => stage
  refine ensures_lift_bind fun object built =>
    ensures_bind (ensures_modify fun memory stage => ?_)
    fun _ => ensures_pure fun _ stage => ⟨rfl, stage⟩
  rcases portObject_eq_ok_iff.mp built with ⟨-, fits, rfl⟩
  refine stage.seed owner ?_ (holds_portObject fits)
  cases direction <;> simp <;> decide

theorem ensures_addSchedulerGroups (owner : port ∈ owners) {level count : Nat} :
    Ensures (Stage owners places) (addSchedulerGroups port level count)
      fun _ => Stage owners places := by
  have taking := @ensures_mapM Nat Nat (fun _ ids memory =>
    memory.Stage owners places ∧ memory.contents.Reserves ids) (fun _ => modifyGet takeId)
    (fun _ _ ids => ensures_takeId fun memory holds =>
      ⟨holds.1.takeId, holds.1.seeded.reserves holds.2⟩) (List.range count) []
  have begun : Ensures (Stage owners places)
    ((List.range count).mapM fun _ => modifyGet takeId)
      fun ids memory => memory.Stage owners places ∧
      memory.contents.Reserves ids.reverse := by
    intro start result last stage ran
    rcases taking start result last ⟨stage, by simp [Contents.Reserves]⟩ ran with
      ⟨stage, reserves⟩
    exact ⟨stage, List.nodup_reverse.mpr reserves.1, fun id member =>
      reserves.2 id (List.mem_reverse.mp member)⟩
  have loop := @ensures_forIn Nat (fun ids memory =>
    memory.Stage owners places ∧ memory.contents.Reserves ids)
  refine ensures_bind begun fun ids => ensures_get_bind fun memory => ensures_bind
    (loop (fun id others => ?_) ids.reverse) fun _ => ensures_pure fun _ holds => holds.1
  refine ensures_lift_bind fun group built =>
    ensures_bind (ensures_modify fun memory holds => ?_)
    fun _ => ensures_pure fun _ holds => ⟨rfl, holds⟩
  rcases seededGroup_eq_ok built with ⟨fits, values, rfl, onPort, isGroup, unbound⟩
  exact holds.1.seedGroup owner holds.2 fits onPort isGroup unbound

theorem entity?_numberedQueue {switchId code : Nat} {key : QueueKey} :
    (ObjectClass.queue.assemble
      (("id", Storage.uint64.word id) :: key.attrs switchId code)).entity? =
        some (key.entity code) := by
  have plain : (ObjectClass.queue.assemble
      (("id", Storage.uint64.word id) :: key.attrs switchId code)).IsPlain :=
    ObjectClass.keyData_assemble
  have shows {attr : String} (has : ObjectClass.queue.Has attr) :
      (ObjectClass.queue.assemble
        (("id", Storage.uint64.word id) :: key.attrs switchId code)).get?
        (ObjectClass.queue.pathOf attr) =
          Directory.findRow attr (("id", Storage.uint64.word id) ::
            key.attrs switchId code) :=
    ObjectClass.get?_assemble has (by simp [QueueKey.attrs]; decide)
  refine StoreObject.entity?_eq_some_iff.mpr ⟨ObjectClass.classPath_assemble, ?_⟩
  simp only [QueueKey.entity, ObjectClass.identity?_eq_some_iff, ObjectClass.keyAttrs,
    List.forall₂_cons, List.Forall₂.nil, plain.lookup, and_true]
  exact ⟨shows (by decide), shows (by decide), shows (by decide)⟩

def queuePlaces (port : Nat) (queueType : String) (numbers : List Nat) : List Place :=
  numbers.map fun number => .ofQueue ⟨port, queueType, number⟩

theorem ensures_addQueues (owner : port ∈ owners) {queueType : String} {count : Nat} :
    Ensures (Stage owners (queuePlaces port queueType (List.range count) ++ rest))
      (addQueues port queueType count) fun _ => Stage owners rest := by
  let left (numbers : List Nat) : Memory → Prop :=
    Stage owners (queuePlaces port queueType numbers ++ rest)
  refine @ensures_mapM Nat Nat (fun numbers _ => left numbers) _
    (fun number others _ => ?_) (List.range count) []
  have taken : Ensures (left (number :: others)) (modifyGet takeId) fun _ =>
    left (number :: others) :=
    ensures_takeId fun memory stage => stage.takeId
  refine ensures_bind taken fun id => ensures_get_bind fun memory => ?_
  refine ensures_lift_bind fun address built => ensures_lift_bind fun queue written =>
    ensures_bind (ensures_modify fun memory stage => ?_) fun _ =>
      ensures_pure fun _ stage => stage
  rcases queueObject_eq_ok_iff.mp built with ⟨-, portFits, numberFits, code, encoded, rfl⟩
  have idSpec : ObjectClass.queue.spec? "id" = some (.scalar .uint64) := rfl
  rcases (Authored.set_uint_eq_ok_iff idSpec ⟨rfl, rfl⟩).mp written with ⟨-, rfl⟩
  refine stage.seed owner ?_ ?_
  · simp [QueueKey.attrs]
    decide
  · exact StoreObject.isQueue_iff.mpr
      ⟨portFits, numberFits, code, encoded, entity?_numberedQueue⟩

/-! ## Whole topologies -/

def portPlaces (port : TopologyPort) : List Place :=
  .ofPort .ingress port.ifindex :: .ofPort .egress port.ifindex ::
    (queuePlaces port.ifindex "UCAST" (List.range port.unicastQueues) ++
      (queuePlaces port.ifindex "MULTICAST" (List.range port.multicastQueues) ++ []))

theorem port_of_mem_portPlaces {port : TopologyPort} (member : place ∈ portPlaces port) :
    place.port = port.ifindex := by
  simp only [portPlaces, queuePlaces, List.mem_cons, List.mem_append, List.mem_map,
    List.not_mem_nil, or_false] at member
  rcases member with rfl | rfl | ⟨number, -, rfl⟩ | ⟨number, -, rfl⟩ <;> rfl

theorem nodup_portPlaces (port : TopologyPort) : (portPlaces port).Nodup := by
  have numbered (queueType : String) (count : Nat) :
      (queuePlaces port.ifindex queueType (List.range count)).Nodup :=
    List.nodup_range.map fun left right same => by simpa using same
  simp [portPlaces, List.nodup_append, numbered]
  simp [queuePlaces]

theorem ensures_addPort (port : TopologyPort) (owner : port.ifindex ∈ owners) :
    Ensures (Stage owners (portPlaces port)) (addPort port) fun _ => Stage owners [] := by
  refine ensures_bind (ensures_addPortObjects owner) fun _ => ?_
  have loop := @ensures_forIn (Nat × Nat) (fun _ => Stage owners
    (queuePlaces port.ifindex "UCAST" (List.range port.unicastQueues) ++
      (queuePlaces port.ifindex "MULTICAST" (List.range port.multicastQueues) ++ [])))
  refine ensures_bind (loop (fun levels _ => ?_) port.schedulerGroups.zipIdx) fun _ => ?_
  · exact ensures_bind (ensures_addSchedulerGroups owner) fun _ =>
      ensures_pure fun _ stage => ⟨rfl, stage⟩
  · exact ensures_bind (ensures_addQueues owner) fun _ =>
      ensures_bind (ensures_addQueues owner) fun _ => ensures_pure fun _ stage => stage

theorem Seeded.stage {port : TopologyPort} (seeded : memory.Seeded owners)
    (new : port.ifindex ∉ owners) :
    memory.Stage (port.ifindex :: owners) (portPlaces port) := by
  refine ⟨{ seeded with owned := fun stored member => ?_ }, nodup_portPlaces port,
    fun place isPlace stored member holds => ?_⟩
  · rcases seeded.owned stored member with ⟨owner, isOwner, onOwner⟩
    exact ⟨owner, List.mem_cons_of_mem _ isOwner, onOwner⟩
  · rcases seeded.owned stored member with ⟨owner, isOwner, onOwner⟩
    have same := onOwner.symm.trans holds.port?
    rw [port_of_mem_portPlaces isPlace, Option.some.injEq] at same
    exact new (same ▸ isOwner)

theorem ensures_addPorts (ports : List TopologyPort) :
    Ensures (fun memory => (∃ owners, memory.Seeded owners ∧
        ∀ port ∈ ports, port.ifindex ∉ owners) ∧ (ports.map (·.ifindex)).Nodup)
      (ports.forM addPort) fun _ memory => ∃ owners, memory.Seeded owners := by
  have loop := @ensures_forM TopologyPort (fun ports memory =>
    (∃ owners, memory.Seeded owners ∧ ∀ port ∈ ports, port.ifindex ∉ owners) ∧
      (ports.map (·.ifindex)).Nodup) addPort (fun port rest => ?_) ports
  · intro start result last begins ran
    rcases (loop start result last begins ran).1 with ⟨owners, seeded, -⟩
    exact ⟨owners, seeded⟩
  · rintro start result last ⟨⟨owners, seeded, new⟩, apart⟩ ran
    rcases List.nodup_cons.mp apart with ⟨portApart, restApart⟩
    have stage := ensures_addPort port List.mem_cons_self start result last
      (seeded.stage (new port List.mem_cons_self)) ran
    refine ⟨⟨_, stage.seeded, fun other member => ?_⟩, restApart⟩
    refine List.not_mem_cons_of_ne_of_not_mem (fun same => ?_)
      (new other (List.mem_cons_of_mem _ member))
    exact portApart (List.mem_map.mpr ⟨other, member, same⟩)

end Memory

/-! ## Listed ports -/

def Topology.listing (topology : Topology) : InterfaceClass → List Port
  | .frontPanel => (topology.ports.filter fun port => !port.cpu).map TopologyPort.listed
  | .cpu => (topology.ports.filter fun port => port.cpu).map TopologyPort.listed

namespace Topology

variable {topology : Topology} {port : TopologyPort} {interfaceClass : InterfaceClass}

theorem mem_listing_iff {listed : Port} : listed ∈ topology.listing interfaceClass ↔
    ∃ port ∈ topology.ports, port.cpu = decide (interfaceClass = .cpu) ∧
    port.listed = listed := by
  cases interfaceClass <;> simp [listing, and_assoc]

theorem isOf_listing : ∀ listed ∈ topology.listing interfaceClass,
    listed.isOf interfaceClass = true := by
  intro listed member
  rcases mem_listing_iff.mp member with ⟨port, -, isCpu, rfl⟩
  cases interfaceClass <;> simp_all [TopologyPort.listed, Port.isOf]

theorem nodup_listing (apart : (topology.ports.map (·.ifindex)).Nodup) :
    ((topology.listing interfaceClass).map (·.ifindex)).Nodup := by
  cases interfaceClass <;> rw [listing, List.map_map] <;>
    exact apart.sublist (List.filter_sublist.map _)

section FrontPanel

variable (member : port ∈ topology.ports) (panel : port.cpu = false)

include member panel

theorem mem_frontPanel : port.listed ∈ topology.listing .frontPanel :=
  mem_listing_iff.mpr ⟨port, member, panel, rfl⟩

theorem find_frontPanel (names : (topology.ports.map (·.name)).Nodup) :
    (topology.listing .frontPanel).find? (fun listed => listed.name = port.name) =
      some port.listed := by
  cases found : (topology.listing .frontPanel).find?
      (fun listed => listed.name = port.name) with
  | none =>
      have missed := List.find?_eq_none.mp found _ (mem_frontPanel member panel)
      exact absurd (decide_eq_true rfl) missed
  | some listed =>
      rcases mem_listing_iff.mp (List.mem_of_find?_eq_some found) with
        ⟨other, isPort, -, rfl⟩
      have sameName := List.find?_some found
      rw [decide_eq_true_eq] at sameName
      rw [List.inj_on_of_nodup_map names isPort member sameName]

theorem apart_of_cpu (apart : (topology.ports.map (·.ifindex)).Nodup) :
    ∀ listed ∈ topology.listing .cpu, listed.ifindex ≠ port.ifindex := by
  intro listed isListed same
  rcases mem_listing_iff.mp isListed with ⟨other, isPort, isCpu, rfl⟩
  cases List.inj_on_of_nodup_map apart isPort member same
  cases isCpu.symm.trans panel

end FrontPanel

end Topology

/-! ## Seeded stores -/

namespace Memory

theorem ofTopology_eq_ok {switchId : Nat} {topology : Topology} {memory : Memory}
    (apart : (topology.ports.map (·.ifindex)).Nodup)
    (built : ofTopology switchId topology = .ok memory) :
    (∃ owners, memory.Seeded owners) ∧ memory.Stands topology.listing := by
  rw [ofTopology] at built
  cases ran : (topology.ports.forM addPort).run (Memory.new switchId) with
  | mk result last =>
      rw [ran] at built
      cases result with
      | error cause => cases built
      | ok _ =>
          simp only [List.partition_eq_filter_filter, Except.ok.injEq] at built
          rw [← built]
          have start : (Memory.new switchId).Seeded [] :=
            ⟨rfl, rfl, by simp [Memory.new],
              .nil, by simp [Memory.new], by simp [Memory.new],
              by simp [Memory.new]⟩
          rcases ensures_addPorts topology.ports _ _ _
              ⟨⟨[], start, by simp⟩, apart⟩ ran with
            ⟨owners, seeded⟩
          refine ⟨⟨owners, { seeded with }⟩, seeded.unruled, seeded.available, ?_⟩
          intro interfaceClass
          cases interfaceClass <;> rfl

end Memory

end SwitchQos
