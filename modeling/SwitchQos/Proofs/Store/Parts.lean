import SwitchQos.Proofs.Store.Rewriting

namespace SwitchQos

/-! The stored objects come in parts, by the port they belong to. Where each object
belongs and what the parts are tells all that is stored, so changes that stay within
different parts do not get in each other's way. -/

def ObjectClass.ofPort : ObjectClass → Bool
  | .schedulerGroup | .queue | .portIngress | .portEgress => true
  | .schedulerProfile | .mapTable _ | .mapEntry _ => false

namespace StoreObject

variable {object old new stored : StoreObject} {objectClass : ObjectClass} {port : Nat}

def port? (object : StoreObject) : Option Nat := do
  let objectClass ← ObjectClass.ofPath? object.classPath
  if objectClass.ofPort then objectClass.number? "port-id" object else none

theorem port?_eq (isOf : object.classPath = objectClass.path) :
    object.port? =
      if objectClass.ofPort then objectClass.number? "port-id" object else none := by
  have found := ObjectClass.ofPath?_eq_some_iff.mpr isOf.symm
  simp only [port?, found, Option.bind_eq_bind, Option.bind_some]

theorem port?_eq_some_iff :
    object.port? = some port ↔ ∃ objectClass : ObjectClass, objectClass.ofPort = true ∧
      object.classPath = objectClass.path ∧
      objectClass.number? "port-id" object = some port := by
  simp only [port?, Option.bind_eq_bind, Option.bind_eq_some_iff,
    ObjectClass.ofPath?_eq_some_iff, Option.ite_none_right_eq_some]
  exact exists_congr fun objectClass => by rw [eq_comm]; tauto

theorem port?_congr (sameClass : new.classPath = old.classPath)
    (same : ∀ objectClass : ObjectClass, old.classPath = objectClass.path →
      new.lookup (objectClass.pathOf "port-id") =
        old.lookup (objectClass.pathOf "port-id")) :
    new.port? = old.port? := by
  simp only [port?, sameClass]
  cases found : ObjectClass.ofPath? old.classPath with
  | none => rfl
  | some objectClass =>
      have isOf := (ObjectClass.ofPath?_eq_some_iff.mp found).symm
      simp only [Option.bind_eq_bind, Option.bind_some,
        ObjectClass.number?_congr (same objectClass isOf)]

theorem port?_of_sameEntity (same : object.SameEntity stored)
    (isOf : object.classPath = objectClass.path)
    (isKey : "port-id" ∈ objectClass.keyAttrs) :
    stored.port? = object.port? := by
  rcases same with ⟨⟨entityClass, key⟩, given, found⟩
  rcases entity?_eq_some_iff.mp given with ⟨givenOf, givenKey⟩
  rcases entity?_eq_some_iff.mp found with ⟨foundOf, foundKey⟩
  refine port?_congr (foundOf.trans givenOf.symm) fun other otherOf => ?_
  have sameClass := ObjectClass.path_injective (otherOf.symm.trans givenOf)
  have isClass := ObjectClass.path_injective (isOf.symm.trans givenOf)
  subst sameClass isClass
  exact ObjectClass.lookup_eq_of_identity?_eq foundKey givenKey isKey

end StoreObject

/-! ## Parts -/

theorem Results.eq_of_filter_eq {Item Key : Type} [DecidableEq Key] {key : Item → Key}
    {left right : List Item} (sameKeys : right.map key = left.map key)
    (same : ∀ value, right.filter (fun item => key item = value) =
      left.filter fun item => key item = value) : right = left := by
  induction left generalizing right with
  | nil => exact List.map_eq_nil_iff.mp sameKeys
  | cons item rest induction =>
      cases right with
      | nil => cases sameKeys
      | cons other others =>
          rw [List.map_cons, List.map_cons, List.cons.injEq] at sameKeys
          have own := same (key item)
          rw [List.filter_cons_of_pos (by simp [sameKeys.1]),
            List.filter_cons_of_pos (by simp), List.cons.injEq] at own
          rw [own.1]
          congr 1
          refine induction sameKeys.2 fun value => ?_
          by_cases isOwn : key item = value
          · exact isOwn ▸ own.2
          · have others := same value
            rwa [List.filter_cons_of_neg (by simpa [sameKeys.1] using isOwn),
              List.filter_cons_of_neg (by simpa using isOwn)] at others

namespace Contents

variable {contents start middle later : Contents} {object : StoreObject}
  {port other : Option Nat}

def part (contents : Contents) (port : Option Nat) : List StoreObject :=
  contents.objects.filter fun stored => stored.port? = port

theorem mem_part_iff {stored : StoreObject} :
    stored ∈ contents.part port ↔ stored ∈ contents.objects ∧ stored.port? = port := by
  rw [part, List.mem_filter, decide_eq_true_eq]

theorem filter_part {condition : StoreObject → Bool}
    (belongs : ∀ stored ∈ contents.objects, condition stored = true →
      stored.port? = port) :
    (contents.part port).filter condition = contents.objects.filter condition := by
  rw [part, List.filter_filter]
  refine List.filter_congr fun stored member => ?_
  cases met : condition stored with
  | false => rfl
  | true => simpa using belongs stored member met

/-- Only what belongs to the port has been changed, and it belongs to it still. -/
structure ConfinedTo (port : Option Nat) (start later : Contents) : Prop where
  nextId : later.nextId = start.nextId
  places : later.objects.map StoreObject.port? = start.objects.map StoreObject.port?
  others : ∀ other, other ≠ port → later.part other = start.part other

theorem confinedTo_self : ConfinedTo port start start := ⟨rfl, rfl, fun _ _ => rfl⟩

theorem ConfinedTo.trans (first : ConfinedTo port start middle)
    (second : ConfinedTo port middle later) : ConfinedTo port start later where
  nextId := second.nextId.trans first.nextId
  places := second.places.trans first.places
  others other apart := (second.others other apart).trans (first.others other apart)

section Rewritten

variable (kept : ∀ stored ∈ contents.objects,
  (object.updatedBy stored).port? = stored.port?)

include kept

theorem part_rewritten :
    (contents.rewritten [object]).part port =
      (contents.part port).map object.updatedBy := by
  rw [part, part, rewritten, List.filter_map]
  refine congrArg _ (List.filter_congr fun stored member => ?_)
  exact congrArg (fun found : Option Nat => decide (found = port)) (kept stored member)

theorem confinedTo_rewritten
    (addresses : ∀ stored ∈ contents.objects, object.SameEntity stored →
      stored.port? = port) :
    ConfinedTo port contents (contents.rewritten [object]) where
  nextId := rfl
  places := by
    rw [rewritten, List.map_map]
    exact List.map_congr_left kept
  others := by
    intro other apart
    rw [part_rewritten kept]
    refine List.map_congr_left (g := id)
      (fun stored member => ?_) |>.trans (List.map_id _)
    rcases mem_part_iff.mp member with ⟨isStored, isOther⟩
    have missed : ¬object.SameEntity stored := fun same =>
      apart (isOther.symm.trans (addresses stored isStored same))
    rw [StoreObject.updatedBy, if_neg missed]
    rfl

end Rewritten

end Contents

end SwitchQos
