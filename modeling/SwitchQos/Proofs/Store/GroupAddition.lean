import SwitchQos.Proofs.Store.Seeding

namespace SwitchQos

/-! What adding scheduler groups to a level of a port comes to. All ids are taken at
first, and the group with the greatest of them is built at first. If that one can be built
so can the others, hence either all of the groups are stored or none, though the ids are
gone in any case. -/

namespace Memory

variable {memory : Memory} {switchId port level id : Nat} {Item : Type}

/-! ## Single groups -/

def addedGroup (switchId port level id : Nat) : StoreObject :=
  groupObject switchId id
    [("child_count", Storage.uint32.word 0), ("level", Storage.uint32.word level),
     ("port-id", Storage.uint32.word port)]

structure GroupFits (switchId port level id : Nat) : Prop where
  switch : switchId < countOfBits 32
  port : port < countOfBits 32
  level : level < countOfBits 32
  id : id < countOfBits 64

theorem seededGroup_eq_ok_iff {group : StoreObject} :
    seededGroup switchId port level id = .ok group ↔
      GroupFits switchId port level id ∧ group = addedGroup switchId port level id := by
  have portSpec : ObjectClass.schedulerGroup.spec? "port-id" =
    some (.scalar .uint32) := rfl
  have levelSpec : ObjectClass.schedulerGroup.spec? "level" =
    some (.scalar .uint32) := rfl
  have countSpec : ObjectClass.schedulerGroup.spec? "child_count" =
    some (.scalar .uint32) := rfl
  have noneFits : 0 < countOfBits 32 := by decide
  simp only [seededGroup, Results.bind_eq_ok_iff, schedulerGroup_eq_ok_iff, and_assoc,
    exists_and_left, exists_eq_left, Authored.set_uint_eq_ok_iff portSpec ⟨rfl, rfl⟩,
    Authored.set_uint_eq_ok_iff levelSpec ⟨rfl, rfl⟩,
    Authored.set_uint_eq_ok_iff countSpec ⟨rfl, rfl⟩, Except.ok.injEq]
  constructor
  · rintro ⟨switchFits, idFits, portFits, levelFits, -, rfl⟩
    exact ⟨⟨switchFits, portFits, levelFits, idFits⟩, rfl⟩
  · rintro ⟨fits, rfl⟩
    exact ⟨fits.switch, fits.id, fits.port, fits.level, noneFits, rfl⟩

/-! ## Runs of parts -/

namespace Seeding

variable {Result Other : Type} {part : Seeding Other} {next : Other → Seeding Result}
  {middle : Memory}

def outcome (part : Seeding Result) (memory : Memory) :
    Except CodecError Result × Memory :=
  part.run.run memory

theorem outcome_bind_ok {value : Other}
    (first : part.outcome memory = (.ok value, middle)) :
    (part >>= next).outcome memory = (next value).outcome middle := by
  rw [outcome] at first
  rw [outcome, ExceptT.run_bind, StateT.run_bind, first]
  rfl

theorem outcome_bind_error {cause : CodecError}
    (first : part.outcome memory = (.error cause, middle)) :
    (part >>= next).outcome memory = (.error cause, middle) := by
  rw [outcome] at first
  rw [outcome, ExceptT.run_bind, StateT.run_bind, first]
  rfl

theorem outcome_forIn_ok {body : Item → PUnit → Seeding (ForInStep PUnit)}
    {change : Memory → Item → Memory} {items : List Item}
    (each : ∀ item ∈ items, ∀ memory,
      (body item ⟨⟩).outcome memory = (.ok (.yield ⟨⟩), change memory item)) :
    (forIn items PUnit.unit body : Seeding PUnit).outcome memory =
      (.ok ⟨⟩, items.foldl change memory) := by
  induction items generalizing memory with
  | nil => rfl
  | cons item rest induction =>
      rw [List.forIn_cons, outcome_bind_ok (each item List.mem_cons_self memory)]
      exact induction fun other member => each other (List.mem_cons_of_mem _ member)

theorem outcome_forIn_error {body : Item → PUnit → Seeding (ForInStep PUnit)}
    {item : Item} {rest : List Item} {cause : CodecError}
    (first : (body item ⟨⟩).outcome memory = (.error cause, memory)) :
    (forIn (item :: rest) PUnit.unit body : Seeding PUnit).outcome memory =
      (.error cause, memory) := by
  rw [List.forIn_cons]
  exact outcome_bind_error first

end Seeding

/-! ## Several groups -/

open Seeding

def takeIds (memory : Memory) (count : Nat) : Memory :=
  { memory with contents :=
    { memory.contents with nextId := memory.contents.nextId + count } }

def seedAll (memory : Memory) (objects : List StoreObject) : Memory :=
  { memory with contents := ⟨memory.contents.objects ++ objects, memory.contents.nextId⟩ }

theorem outcome_takeIds (items : List Item) :
    (items.mapM fun _ => modifyGet takeId : Seeding (List Nat)).outcome memory =
      (.ok (List.range' memory.contents.nextId items.length),
        memory.takeIds items.length) := by
  induction items generalizing memory with
  | nil => rfl
  | cons item rest induction =>
      have taken : (modifyGet takeId : Seeding Nat).outcome memory =
          (.ok memory.contents.nextId, memory.takeIds 1) := rfl
      rw [List.mapM_cons, outcome_bind_ok taken, outcome_bind_ok induction,
        List.length_cons,
        List.range'_succ, Nat.add_comm rest.length 1, takeIds, takeIds, takeIds]
      simp only [Nat.add_assoc]
      rfl

theorem foldl_seed (build : Item → StoreObject) (items : List Item) :
    items.foldl (fun memory item => memory.seed (build item)) memory =
      memory.seedAll (items.map build) := by
  induction items generalizing memory with
  | nil => simp [seedAll]
  | cons item rest induction =>
      rw [List.foldl_cons, induction]
      simp [seedAll, seed, Contents.add]

/-- Ids are taken in any case. Either all groups are stored, the one with the greatest id
in front, or none is. -/
theorem addSchedulerGroups_cases (memory : Memory) (port level count : Nat) :
    let ids := List.range' memory.contents.nextId count
    (∃ cause, (addSchedulerGroups port level count).outcome memory =
        (.error cause, memory.takeIds count)) ∨
      (addSchedulerGroups port level count).outcome memory =
          (.ok ids, (memory.takeIds count).seedAll
            (ids.reverse.map (addedGroup memory.switchId port level))) ∧
        ∀ id ∈ ids, GroupFits memory.switchId port level id := by
  intro ids
  have taken := @outcome_takeIds memory Nat (List.range count)
  rw [List.length_range] at taken
  rw [addSchedulerGroups, outcome_bind_ok taken]
  have asked : (get : Seeding Memory).outcome (memory.takeIds count) =
      (.ok (memory.takeIds count), memory.takeIds count) := rfl
  rw [outcome_bind_ok asked]
  by_cases fit : ∀ id ∈ ids, GroupFits memory.switchId port level id
  · right
    refine ⟨?_, fit⟩
    rw [outcome_bind_ok (@outcome_forIn_ok _ _ _
      (fun later id => later.seed (addedGroup memory.switchId port level id)) _ ?_),
      foldl_seed]
    · rfl
    · intro id member later
      have built := seededGroup_eq_ok_iff.mpr ⟨fit id (List.mem_reverse.mp member), rfl⟩
      have same : (memory.takeIds count).switchId = memory.switchId := rfl
      rw [same, built]
      rfl
  · left
    -- The greatest id decides: where it fits so do the others.
    cases count with
    | zero => exact absurd (fun _ member => (List.not_mem_nil member).elim) fit
    | succ count =>
        have greatest : List.range' memory.contents.nextId (count + 1) =
            List.range' memory.contents.nextId count ++
              [memory.contents.nextId + count] := by
          rw [List.range'_concat, Nat.one_mul]
        cases built : seededGroup memory.switchId port level
            (memory.contents.nextId + count) with
        | ok group =>
            have fits := (seededGroup_eq_ok_iff.mp built).1
            refine absurd (fun id member => { fits with id := ?_ }) fit
            have bounds := List.mem_range'_1.mp member
            have room := fits.id
            omega
        | error cause =>
            refine ⟨cause, ?_⟩
            rw [greatest, List.reverse_append, List.reverse_singleton,
              List.singleton_append]
            refine outcome_bind_error (outcome_forIn_error ?_)
            have same : (memory.takeIds (count + 1)).switchId = memory.switchId := rfl
            rw [same, built]
            rfl

end Memory

end SwitchQos
