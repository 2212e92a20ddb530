import Mathlib.Data.List.Basic
import SwitchQos.Proofs.Text.Affixes
import SwitchQos.Schema.Attribute

namespace SwitchQos

/-! Paths tell classes apart, and within a class they tell attributes apart. -/

namespace MapType

theorem name_injective {left right : MapType} (same : left.name = right.name) :
    left = right := by
  cases left <;> cases right <;> first | rfl | simp [name] at same

theorem ofName?_eq_some_iff {name : String} {mapType : MapType} :
    ofName? name = some mapType ↔ mapType.name = name := by
  constructor
  · intro found
    rw [ofName?] at found
    simpa using List.find?_some found
  · rintro rfl
    cases mapType <;> decide

theorem slash_not_mem_name (mapType : MapType) : '/' ∉ mapType.name.toList := by
  cases mapType <;> simp [name]

end MapType

namespace ObjectClass

private theorem name_ne_append_entry (mapType : MapType) (front : String) :
    mapType.name ≠ front ++ "/entry" := by
  intro same
  apply mapType.slash_not_mem_name
  simp [same]

theorem name_injective {left right : ObjectClass} (same : left.name = right.name) :
    left = right := by
  cases left with
  | mapTable leftType =>
      cases right with
      | mapTable rightType => rw [MapType.name_injective same]
      | mapEntry rightType => exact absurd same (name_ne_append_entry leftType _)
      | _ => cases leftType <;> simp [name, MapType.name] at same
  | mapEntry leftType =>
      cases right with
      | mapTable rightType => exact absurd same.symm (name_ne_append_entry rightType _)
      | mapEntry rightType =>
          rw [MapType.name_injective (String.append_left_inj _ |>.mp same)]
      | _ => cases leftType <;> simp [name, MapType.name] at same
  | _ =>
      cases right with
      | mapTable rightType | mapEntry rightType =>
          cases rightType <;> simp [name, MapType.name] at same
      | _ => first | rfl | simp [name] at same

theorem path_injective {left right : ObjectClass} (same : left.path = right.path) :
    left = right := by
  apply name_injective
  have chars := congrArg String.toList same
  simp only [path, String.toList_append] at chars
  exact String.toList_injective (List.append_cancel_left chars)

@[simp] theorem path_inj {left right : ObjectClass} :
    left.path = right.path ↔ left = right :=
  ⟨path_injective, fun same => same ▸ rfl⟩

/-! ## Reading names and paths -/

private theorem find?_plain_of_not_mem {objectClass : ObjectClass}
    (notPlain : objectClass ∉ plain) :
    (plain.find? fun other => other.name = objectClass.name) = none := by
  rw [List.find?_eq_none]
  intro other isPlain
  simp only [decide_eq_true_eq]
  intro same
  exact notPlain (name_injective same ▸ isPlain)

theorem ofName?_name (objectClass : ObjectClass) :
    ofName? objectClass.name = some objectClass := by
  cases objectClass with
  | mapTable mapType =>
      have noEntry : ahead? "/entry" mapType.name = none := by
        rw [Option.eq_none_iff_forall_ne_some]
        intro front found
        exact name_ne_append_entry mapType front (ahead?_eq_some_iff.mp found)
      rw [ofName?, find?_plain_of_not_mem (by simp [plain])]
      simp only [name, noEntry, MapType.ofName?_eq_some_iff.mpr rfl, Option.map_some]
  | mapEntry mapType =>
      have table : ahead? "/entry" (mapType.name ++ "/entry") = some mapType.name :=
        ahead?_eq_some_iff.mpr rfl
      rw [ofName?, find?_plain_of_not_mem (by simp [plain])]
      simp only [name, table, MapType.ofName?_eq_some_iff.mpr rfl, Option.map_some]
  | _ => decide

theorem name_of_ofName? {text : String} {objectClass : ObjectClass}
    (found : ofName? text = some objectClass) : objectClass.name = text := by
  rw [ofName?] at found
  split at found
  · rename_i other isPlain
    cases found
    simpa using List.find?_some isPlain
  · split at found
    · rename_i table ends
      obtain ⟨mapType, read, rfl⟩ := Option.map_eq_some_iff.mp found
      rw [name, MapType.ofName?_eq_some_iff.mp read, ahead?_eq_some_iff.mp ends]
    · obtain ⟨mapType, read, rfl⟩ := Option.map_eq_some_iff.mp found
      exact MapType.ofName?_eq_some_iff.mp read

theorem ofName?_eq_some_iff {text : String} {objectClass : ObjectClass} :
    ofName? text = some objectClass ↔ objectClass.name = text :=
  ⟨name_of_ofName?, fun same => same ▸ ofName?_name objectClass⟩

theorem ofPath?_eq_some_iff {text : String} {objectClass : ObjectClass} :
    ofPath? text = some objectClass ↔ objectClass.path = text := by
  simp only [ofPath?, Option.bind_eq_some_iff, behind?_eq_some_iff, ofName?_eq_some_iff]
  constructor
  · intro ⟨name, whole, named⟩
    rw [path, named, whole]
  · intro same
    exact ⟨objectClass.name, same.symm, rfl⟩

theorem ofPath_eq_ok_iff {text : String} {objectClass : ObjectClass} :
    ofPath text = .ok objectClass ↔ objectClass.path = text := by
  rw [ofPath, ← ofPath?_eq_some_iff]
  cases ofPath? text <;> simp

theorem ofPath_eq_error_iff {text : String} {fault : CodecError} :
    ofPath text = .error fault ↔
      fault = .unknownClass text ∧
      ∀ objectClass : ObjectClass, text ≠ objectClass.path := by
  cases found : ofPath? text with
  | some objectClass =>
      rw [ofPath, found]
      constructor
      · intro refused
        cases refused
      · intro refused
        exact absurd (ofPath?_eq_some_iff.mp found).symm (refused.2 objectClass)
  | none =>
      have notPath : ∀ objectClass : ObjectClass, text ≠ objectClass.path := by
        intro objectClass same
        rw [ofPath?_eq_some_iff.mpr same.symm] at found
        cases found
      rw [ofPath, found, Except.error.injEq, eq_comm]
      exact ⟨fun named => ⟨named, notPath⟩, fun refused => refused.1⟩

@[simp] theorem ofPath_path (objectClass : ObjectClass) :
    ofPath objectClass.path = .ok objectClass := ofPath_eq_ok_iff.mpr rfl

/-! ## Attributes -/

def Has (objectClass : ObjectClass) (attr : String) : Prop :=
  (objectClass.spec? attr).isSome

instance (objectClass : ObjectClass) (attr : String) : Decidable (objectClass.Has attr) :=
  inferInstanceAs (Decidable (_ = true))

/-- Where an attribute is kept; only of interest for attributes of the class. -/
def pathOf (objectClass : ObjectClass) (attr : String) : String :=
  (objectClass.attrPath? attr).getD ""

theorem Has.of_spec? {objectClass : ObjectClass} {attr : String} {spec : AttrSpec}
    (found : objectClass.spec? attr = some spec) : objectClass.Has attr := by
  simp [Has, found]

theorem attrPath?_of_has {objectClass : ObjectClass} {attr : String}
    (has : objectClass.Has attr) :
    objectClass.attrPath? attr = some (objectClass.pathOf attr) := by
  rcases Option.isSome_iff_exists.mp has with ⟨spec, found⟩
  simp [pathOf, attrPath?, found]

theorem attrPath_of_has {objectClass : ObjectClass} {attr : String}
    (has : objectClass.Has attr) :
    objectClass.attrPath attr = .ok (objectClass.pathOf attr) := by
  rw [attrPath, attrPath?_of_has has]

theorem has_of_attrPath? {objectClass : ObjectClass} {attr path : String}
    (found : objectClass.attrPath? attr = some path) :
    objectClass.Has attr ∧ path = objectClass.pathOf attr := by
  have has : objectClass.Has attr := by
    rcases Option.map_eq_some_iff.mp found with ⟨spec, specified, -⟩
    exact .of_spec? specified
  rw [attrPath?_of_has has] at found
  exact ⟨has, (Option.some.inj found).symm⟩

theorem attrPath_eq_ok_iff {objectClass : ObjectClass} {attr path : String} :
    objectClass.attrPath attr = .ok path ↔
      objectClass.Has attr ∧ path = objectClass.pathOf attr := by
  constructor
  · intro located
    rw [attrPath] at located
    split at located
    · rename_i found
      cases located
      exact has_of_attrPath? found
    · cases located
  · rintro ⟨has, rfl⟩
    exact attrPath_of_has has

private theorem pathOf_eq {objectClass : ObjectClass} {attr : String} {spec : AttrSpec}
    (found : objectClass.spec? attr = some spec) :
    objectClass.pathOf attr = (objectClass.owner spec.scope).path ++ "/" ++ attr := by
  simp [pathOf, attrPath?, found]

/-- Only map entries keep attributes under another class: those they share with
their table. -/
private theorem scope_eq_own_or {objectClass : ObjectClass} {attr : String}
    {spec : AttrSpec} (found : objectClass.spec? attr = some spec) :
    objectClass.owner spec.scope = objectClass ∨
      ∃ mapType, objectClass = .mapEntry mapType ∧
        objectClass.owner spec.scope = .mapTable mapType ∧
        (attr = "switch-id" ∨ attr = "id") := by
  have member : (attr, spec) ∈ objectClass.schema := by
    rcases List.lookup_eq_some_iff.mp found with ⟨before, after, split, -⟩
    simp [split]
  cases objectClass with
  | mapEntry mapType =>
      simp only [schema, List.mem_cons, Prod.mk.injEq, List.not_mem_nil,
        or_false] at member
      rcases member with ⟨rfl, rfl⟩ | ⟨rfl, rfl⟩ | member
      · exact .inr ⟨mapType, rfl, rfl, .inl rfl⟩
      · exact .inr ⟨mapType, rfl, rfl, .inr rfl⟩
      · left
        have own : spec.scope = .own := by
          rcases member with h | h | h | h | h | h | h | h <;> rw [h.2] <;> rfl
        rw [own, owner]
  | _ =>
      left
      cases spec.scope <;> rfl

private theorem shared_ne_own {mapType : MapType} {shared own : String}
    (isShared : shared = "switch-id" ∨ shared = "id") :
    (ObjectClass.mapTable mapType).path ++ "/" ++ shared ≠
      (ObjectClass.mapEntry mapType).path ++ "/" ++ own := by
  intro same
  have chars := congrArg String.toList same
  simp only [path, name, String.toList_append, List.append_assoc,
    List.append_cancel_left_eq] at chars
  rcases isShared with rfl | rfl <;> simp at chars

theorem pathOf_injective {objectClass : ObjectClass} {left right : String}
    (hasLeft : objectClass.Has left) (hasRight : objectClass.Has right)
    (same : objectClass.pathOf left = objectClass.pathOf right) : left = right := by
  rcases Option.isSome_iff_exists.mp hasLeft with ⟨leftSpec, leftFound⟩
  rcases Option.isSome_iff_exists.mp hasRight with ⟨rightSpec, rightFound⟩
  rw [pathOf_eq leftFound, pathOf_eq rightFound] at same
  have cancel : ∀ owner : ObjectClass,
      owner.path ++ "/" ++ left = owner.path ++ "/" ++ right → left = right :=
    fun owner equal => (String.append_right_inj _).mp equal
  rcases scope_eq_own_or leftFound with leftOwn | ⟨mapType, rfl, leftParent, leftShared⟩
  · rcases scope_eq_own_or rightFound with
      rightOwn | ⟨mapType, rfl, rightParent, rightShared⟩
    · rw [leftOwn, rightOwn] at same
      exact cancel _ same
    · rw [leftOwn, rightParent] at same
      exact absurd same.symm (shared_ne_own rightShared)
  · rcases scope_eq_own_or rightFound with rightOwn | ⟨other, equal, rightParent, -⟩
    · rw [leftParent, rightOwn] at same
      exact absurd same (shared_ne_own leftShared)
    · cases equal
      rw [leftParent, rightParent] at same
      exact cancel _ same

theorem pathOf_ne {objectClass : ObjectClass} {left right : String}
    (hasLeft : objectClass.Has left) (hasRight : objectClass.Has right)
    (different : left ≠ right) : objectClass.pathOf left ≠ objectClass.pathOf right :=
  fun same => different (pathOf_injective hasLeft hasRight same)

/-! ## Keys -/

theorem has_of_mem_keyAttrs {objectClass : ObjectClass} {attr : String}
    (key : attr ∈ objectClass.keyAttrs) : objectClass.Has attr := by
  cases objectClass with
  | mapEntry mapType =>
      cases mapType <;>
        simp only [keyAttrs, MapType.keyFields, List.mem_cons, List.not_mem_nil,
          or_false] at key <;>
        rcases key with rfl | rfl | rfl <;> rfl
  | queue =>
      simp only [keyAttrs, List.mem_cons, List.not_mem_nil, or_false] at key
      rcases key with rfl | rfl | rfl <;> rfl
  | _ =>
      simp only [keyAttrs, List.mem_cons, List.not_mem_nil, or_false] at key
      subst key
      rfl

theorem keyPaths_eq (objectClass : ObjectClass) :
    objectClass.keyPaths = objectClass.keyAttrs.map objectClass.pathOf := by
  rw [keyPaths, List.filterMap_eq_map_iff_forall_eq_some]
  exact fun attr key => attrPath?_of_has (has_of_mem_keyAttrs key)

theorem pathOf_id_table (mapType : MapType) :
    (ObjectClass.mapTable mapType).pathOf "id" =
      (ObjectClass.mapTable mapType).path ++ "/id" :=
  String.append_assoc

theorem pathOf_entry_table (mapType : MapType) :
    (ObjectClass.mapTable mapType).pathOf "entry" =
      (ObjectClass.mapTable mapType).path ++ "/entry" :=
  String.append_assoc

/-- An entry keeps its id where its table does. -/
theorem pathOf_id_entry (mapType : MapType) :
    (ObjectClass.mapEntry mapType).pathOf "id" =
      (ObjectClass.mapTable mapType).pathOf "id" :=
  rfl

end ObjectClass

end SwitchQos
