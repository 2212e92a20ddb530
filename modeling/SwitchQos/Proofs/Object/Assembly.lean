import SwitchQos.Object.Provisioned
import SwitchQos.Proofs.Codec.Texts
import SwitchQos.Proofs.Directory
import SwitchQos.Store.Contents

namespace SwitchQos

/-! Objects come into being attribute by attribute. Which values a finished object
has, and which stored objects agree with it when it serves as a template, follows
from the list of its attributes alone. -/

namespace ObjectClass

variable {objectClass : ObjectClass} {values : List (String × StoreValue)}

def assemble (objectClass : ObjectClass) : List (String × StoreValue) → StoreObject
  | [] => .new objectClass.path
  | (attr, value) :: earlier =>
      (objectClass.assemble earlier).insert (objectClass.pathOf attr) value

@[simp] theorem classPath_assemble :
    (objectClass.assemble values).classPath = objectClass.path := by
  induction values with
  | nil => rfl
  | cons row rest induction => exact induction

@[simp] theorem keyData_assemble : (objectClass.assemble values).keyData = none := by
  induction values with
  | nil => rfl
  | cons row rest induction => exact induction

theorem get?_assemble {attr : String} (has : objectClass.Has attr)
    (hasAll : ∀ row ∈ values, objectClass.Has row.1) :
    (objectClass.assemble values).get? (objectClass.pathOf attr) =
      Directory.findRow attr values := by
  induction values with
  | nil => rfl
  | cons row rest induction =>
      rcases row with ⟨other, value⟩
      have others :=
        induction fun row member => hasAll row (List.mem_cons_of_mem _ member)
      have hasOther := hasAll _ List.mem_cons_self
      rw [assemble, Directory.findRow]
      by_cases same : other = attr
      · simp [same]
      · rw [StoreObject.get?_insert_of_ne _ (pathOf_ne hasOther has same),
          others, if_neg same]

theorem mem_of_get?_assemble {path : String} {value : StoreValue}
    (kept : (objectClass.assemble values).get? path = some value) :
    ∃ row ∈ values, path = objectClass.pathOf row.1 ∧ value = row.2 := by
  induction values with
  | nil => cases kept
  | cons row rest induction =>
      by_cases same : objectClass.pathOf row.1 = path
      · subst same
        rw [assemble, StoreObject.get?_insert_self] at kept
        exact ⟨row, List.mem_cons_self, rfl, (Option.some.inj kept).symm⟩
      · rw [assemble, StoreObject.get?_insert_of_ne _ same] at kept
        rcases induction kept with ⟨found, member, where_, what⟩
        exact ⟨found, List.mem_cons_of_mem _ member, where_, what⟩

theorem get?_assemble_iff (hasAll : ∀ row ∈ values, objectClass.Has row.1)
    (distinct : (values.map (·.1)).Nodup) {path : String} {value : StoreValue} :
    (objectClass.assemble values).get? path = some value ↔
      ∃ attr, path = objectClass.pathOf attr ∧ (attr, value) ∈ values := by
  constructor
  · intro kept
    rcases mem_of_get?_assemble kept with ⟨row, member, rfl, rfl⟩
    exact ⟨row.1, rfl, member⟩
  · rintro ⟨attr, rfl, member⟩
    rw [get?_assemble (hasAll _ member) hasAll]
    exact Directory.findRow_of_mem distinct member

theorem get?_assemble_of_ne {path : String}
    (different : ∀ row ∈ values, path ≠ objectClass.pathOf row.1) :
    (objectClass.assemble values).get? path = none := by
  cases kept : (objectClass.assemble values).get? path with
  | none => rfl
  | some value =>
      rcases mem_of_get?_assemble kept with ⟨row, member, same, -⟩
      exact absurd same (different row member)

theorem rows_assemble (hasAll : ∀ row ∈ values, objectClass.Has row.1)
    (distinct : (values.map (·.1)).Nodup) :
    (objectClass.assemble values).attrs.rows.Perm
      (values.map fun row => (objectClass.pathOf row.1, row.2)) := by
  induction values with
  | nil => exact .refl _
  | cons row rest induction =>
      have hasRest : ∀ row ∈ rest, objectClass.Has row.1 :=
        fun row member => hasAll row (List.mem_cons_of_mem _ member)
      rw [List.map_cons, List.nodup_cons] at distinct
      have absent : (objectClass.assemble rest).get?
          (objectClass.pathOf row.1) = none := by
        rw [get?_assemble (hasAll row List.mem_cons_self) hasRest,
          Directory.findRow_eq_none_iff]
        exact distinct.1
      exact (Directory.insertRow_perm row.2 absent).trans
        ((induction hasRest distinct.2).cons _)

theorem agreesWith_assemble (stored : StoreObject)
    (hasAll : ∀ row ∈ values, objectClass.Has row.1)
    (distinct : (values.map (·.1)).Nodup) :
    stored.agreesWith (objectClass.assemble values) =
      values.all fun row =>
        StoreObject.agreesWith.agrees stored (objectClass.pathOf row.1, row.2) := by
  have rows := rows_assemble hasAll distinct
  have plain : (objectClass.assemble values).keyData = none := keyData_assemble
  cases assembled : objectClass.assemble values with
  | mk classPath attrs keyData =>
      rw [assembled] at rows plain
      cases plain
      rw [StoreObject.agreesWith, rows.all_eq, List.all_map]
      rfl

@[simp] theorem agrees_word {stored : StoreObject} {path : String} {storage : Storage}
    {number : Nat} :
    StoreObject.agreesWith.agrees stored (path, storage.word number) =
      decide (stored.get? path = some (storage.word number)) := rfl

theorem set_assemble_eq_ok_iff {attr : String} {value : AttrValue}
    {result : StoreObject} :
    objectClass.set (objectClass.assemble values) attr value = .ok result ↔
      ∃ stored, objectClass.encode attr value = .ok stored ∧
        result = objectClass.assemble ((attr, stored) :: values) := set_eq_ok_iff

end ObjectClass

/-! ## Authored objects -/

namespace Authored

variable {objectClass : ObjectClass} {values : List (String × StoreValue)} {attr : String}
  {result : Authored}

def assembled (objectClass : ObjectClass)
    (values : List (String × StoreValue)) : Authored :=
  ⟨objectClass, objectClass.assemble values⟩

@[simp] theorem data_assembled :
    (assembled objectClass values).data = objectClass.assemble values := rfl

@[simp] theorem objectClass_assembled :
    (assembled objectClass values).objectClass = objectClass := rfl

theorem new_eq (objectClass : ObjectClass) :
    Authored.new objectClass = assembled objectClass [] :=
  rfl

theorem set_eq_ok_iff {value : AttrValue} :
    (assembled objectClass values).set attr value = .ok result ↔
      ∃ stored, objectClass.encode attr value = .ok stored ∧
        result = assembled objectClass ((attr, stored) :: values) := by
  simp only [set, Results.bind_eq_ok_iff, Except.ok.injEq]
  constructor
  · rintro ⟨data, written, rfl⟩
    rcases ObjectClass.set_assemble_eq_ok_iff.mp written with ⟨stored, encoded, rfl⟩
    exact ⟨stored, encoded, rfl⟩
  · rintro ⟨stored, encoded, rfl⟩
    exact ⟨_, ObjectClass.set_assemble_eq_ok_iff.mpr ⟨stored, encoded, rfl⟩, rfl⟩

theorem set_uint_eq_ok_iff {spec : AttrSpec} (found : objectClass.spec? attr = some spec)
    (natural : spec.IsNatural) {number : Nat} :
    (assembled objectClass values).set attr (.uint number) = .ok result ↔
      number < spec.storage.modulus ∧
        result = assembled objectClass ((attr, spec.storage.word number) :: values) := by
  simp only [set_eq_ok_iff, ObjectClass.encode_eq_ok_iff found,
    AttrSpec.encode_uint_eq_ok_iff natural]
  constructor
  · rintro ⟨stored, ⟨fits, rfl⟩, rfl⟩
    exact ⟨fits, rfl⟩
  · rintro ⟨fits, rfl⟩
    exact ⟨_, ⟨fits, rfl⟩, rfl⟩

theorem setText_eq_ok_iff {text : String} :
    (assembled objectClass values).setText attr text = .ok result ↔
      ∃ stored, objectClass.encodeText attr text = .ok stored ∧
        result = assembled objectClass ((attr, stored) :: values) := by
  simp only [setText, Results.bind_eq_ok_iff, Except.ok.injEq]
  refine exists_congr fun stored => and_congr_right fun encoded => ?_
  have has : objectClass.Has attr := by
    rcases ObjectClass.encodeText_eq_ok_iff.mp encoded with ⟨value, parsed, -⟩
    exact ObjectClass.has_of_parseText parsed
  constructor
  · rintro ⟨path, located, rfl⟩
    rw [objectClass_assembled, ObjectClass.attrPath_of_has has] at located
    cases located
    rfl
  · rintro rfl
    exact ⟨_, ObjectClass.attrPath_of_has has, rfl⟩

theorem setTexts_eq_ok_iff {texts : List (String × String)} :
    (assembled objectClass values).setTexts texts = .ok result ↔
      ∃ rows, List.Forall₂ (fun text row => row.1 = text.1 ∧
          objectClass.encodeText text.1 text.2 = .ok row.2) texts rows ∧
        result = assembled objectClass (rows.reverse ++ values) := by
  induction texts generalizing values with
  | nil =>
      constructor
      · intro same
        cases same
        exact ⟨[], .nil, rfl⟩
      · rintro ⟨rows, related, rfl⟩
        cases related
        rfl
  | cons text rest induction =>
      have step : (assembled objectClass values).setTexts (text :: rest) =
          ((assembled objectClass values).setText text.1 text.2 >>= fun written =>
            written.setTexts rest) := rfl
      rw [step, Results.bind_eq_ok_iff]
      constructor
      · rintro ⟨written, first, others⟩
        rcases setText_eq_ok_iff.mp first with ⟨stored, encoded, rfl⟩
        rcases induction.mp others with ⟨rows, related, rfl⟩
        exact ⟨(text.1, stored) :: rows, .cons ⟨rfl, encoded⟩ related, by simp⟩
      · rintro ⟨rows, related, rfl⟩
        cases related with
        | @cons _ row _ others encoded related =>
            rcases row with ⟨attr, stored⟩
            rcases encoded with ⟨rfl, encoded⟩
            exact ⟨_, setText_eq_ok_iff.mpr ⟨stored, encoded, rfl⟩,
              induction.mpr ⟨others, related, by simp⟩⟩

end Authored

end SwitchQos
