import SwitchQos.Object.Record
import SwitchQos.Proofs.Codec.Attributes
import SwitchQos.Proofs.Directory
import SwitchQos.Store.Contents

namespace SwitchQos

/-! Stored objects have no key data; only answers do. An answer shows each
attribute of the stored object, wherever it has been moved. -/

namespace StoreObject

/-- All attributes are the object's own. -/
def IsPlain (object : StoreObject) : Prop := object.keyData = none

instance (object : StoreObject) : Decidable object.IsPlain :=
  inferInstanceAs (Decidable (_ = _))

theorem IsPlain.lookup {object : StoreObject} (plain : object.IsPlain) (path : String) :
    object.lookup path = object.get? path := by
  rcases object with ⟨classPath, attrs, keyData⟩
  cases plain
  rfl

theorem IsPlain.number?_eq_some_iff {object : StoreObject} (plain : object.IsPlain)
    {objectClass : ObjectClass} {attr : String} {spec : AttrSpec}
    (found : objectClass.spec? attr = some spec) (natural : spec.IsNatural)
    {number : Nat} :
    objectClass.number? attr object = some number ↔
      number < spec.storage.modulus ∧
        object.get? (objectClass.pathOf attr) = some (spec.storage.word number) := by
  rw [ObjectClass.number?_eq_some_iff found natural, plain.lookup]

@[simp] theorem isPlain_insert {object : StoreObject} {path : String}
    {value : StoreValue} :
    (object.insert path value).IsPlain ↔ object.IsPlain := Iff.rfl

@[simp] theorem classPath_insert (object : StoreObject) (path : String)
    (value : StoreValue) :
    (object.insert path value).classPath = object.classPath := rfl

/-! ## Merging -/

@[simp] theorem classPath_mergeFrom (object other : StoreObject) :
    (object.mergeFrom other).classPath = object.classPath := rfl

@[simp] theorem keyData_mergeFrom (object other : StoreObject) :
    (object.mergeFrom other).keyData = object.keyData := rfl

theorem IsPlain.mergeFrom {object : StoreObject} (plain : object.IsPlain)
    (other : StoreObject) : (object.mergeFrom other).IsPlain := plain

theorem IsPlain.get?_mergeFrom {other : StoreObject} (plain : other.IsPlain)
    (object : StoreObject) (path : String) :
    (object.mergeFrom other).get? path = (other.get? path).or (object.get? path) := by
  rw [StoreObject.get?_mergeFrom, plain.lookup]

/-! ## Answers -/

@[simp] theorem classPath_answer (objectClass : ObjectClass) (object : StoreObject) :
    (object.answer objectClass).classPath = object.classPath := rfl

/-- Moving the key attributes hides none of them and changes none. -/
@[simp] theorem lookup_answer (objectClass : ObjectClass) (object : StoreObject)
    (path : String) :
    (object.answer objectClass).lookup path = object.get? path := by
  have kept :=
    Directory.findRow_filter (fun key => !decide (key ∈ objectClass.keyPaths)) path
    object.attrs.rows
  have moved :=
    Directory.findRow_filter (fun key => decide (key ∈ objectClass.keyPaths)) path
    object.attrs.rows
  simp only [answer]
  split
  · rename_i empty
    rw [List.isEmpty_iff] at empty
    rw [empty] at moved
    simp only [lookup, Directory.get?, get?, kept]
    by_cases key : path ∈ objectClass.keyPaths
    · simpa [key, Directory.findRow, eq_comm] using moved
    · simp [key]
  · simp only [lookup, Directory.get?, get?, kept, moved]
    by_cases key : path ∈ objectClass.keyPaths <;> simp [key]

/-! ## The view of an object -/

theorem lookup_congr {left right : StoreObject} (same : left.flattened = right.flattened)
    (path : String) : left.lookup path = right.lookup path := by
  rw [← get?_flattened, ← get?_flattened, same]

theorem ordered_flattened {object : StoreObject} (ordered : object.attrs.Ordered) :
    object.flattened.Ordered := by
  rcases object with ⟨classPath, attrs, keyData⟩
  cases keyData with
  | none => exact ordered
  | some keys => exact ordered.insertAll keys.flattened

theorem flattened_answer {object : StoreObject} (plain : object.IsPlain)
    (ordered : object.attrs.Ordered) (objectClass : ObjectClass) :
    (object.answer objectClass).flattened = object.flattened := by
  have ownOrdered : (object.answer objectClass).attrs.Ordered :=
    List.Pairwise.filter _ ordered
  refine (ordered_flattened ownOrdered).ext (ordered_flattened ordered) fun path => ?_
  rw [get?_flattened, get?_flattened, lookup_answer, plain.lookup]

end StoreObject

/-! ## Reading answers -/

namespace Record

theorem wrap_eq_ok_iff {data : StoreObject} {record : Record} :
    Record.wrap data = .ok record ↔
      ∃ objectClass, data.classPath = objectClass.path ∧
      record = .view objectClass data := by
  simp only [wrap, Results.bind_eq_ok_iff, ObjectClass.ofPath_eq_ok_iff, Except.ok.injEq,
    eq_comm (a := record)]
  exact exists_congr fun objectClass => and_congr_left fun _ => eq_comm

theorem wrap_answer {objectClass : ObjectClass} {stored : StoreObject}
    (isOf : stored.classPath = objectClass.path) :
    Record.wrap (stored.answer objectClass) =
      .ok (.view objectClass (stored.answer objectClass)) :=
  wrap_eq_ok_iff.mpr ⟨objectClass, isOf, rfl⟩

theorem id_answer_iff {objectClass : ObjectClass} {spec : AttrSpec} {stored : StoreObject}
    {id : Nat} (found : objectClass.spec? "id" = some spec) (natural : spec.IsNatural) :
    (Record.view objectClass (stored.answer objectClass)).id = .ok (some id) ↔
      id < spec.storage.modulus ∧
        stored.get? (objectClass.pathOf "id") = some (spec.storage.word id) := by
  rw [Record.id, Record.objectClass, Record.data,
    ObjectClass.decodeNat_eq_some_iff found natural,
    ObjectClass.decode_uint_iff found natural, StoreObject.lookup_answer]

end Record

end SwitchQos
