import SwitchQos.Proofs.Object.Assembly
import SwitchQos.Proofs.Object.KeyData

namespace SwitchQos

/-! From a view to an authored object and back. A view may have key data inside key
data, and the same attribute in several of them; the authored object has one value
for each path, the one that the view shows. So one who reads it cannot tell which
of the two it is. -/

namespace Record

variable {objectClass : ObjectClass} {data : StoreObject}

structure Shows (record : Record) (objectClass : ObjectClass)
    (data : StoreObject) : Prop where
  isOf : record.objectClass = objectClass
  attr : ∀ attr, record.attr attr = objectClass.decode attr data
  id : record.id = objectClass.decodeNat "id" data

theorem shows_of_lookup {record : Record} (isOf : record.objectClass = objectClass)
    (same : ∀ path, record.data.lookup path = data.lookup path) :
    record.Shows objectClass data := by
  constructor
  case isOf => exact isOf
  case attr =>
    intro attr
    rw [Record.attr, isOf]
    exact ObjectClass.decode_congr (same _)
  case id =>
    rw [Record.id, isOf]
    exact ObjectClass.decodeNat_congr (same _)

theorem isPlain_toAuthored_view :
    (Record.view objectClass data).toAuthored.data.IsPlain := rfl

theorem get?_toAuthored_view (path : String) :
    (Record.view objectClass data).toAuthored.data.get? path = data.lookup path := by
  have empty : (StoreObject.new objectClass.path).get? path = none := rfl
  rw [toAuthored, StoreObject.get?_mergeFrom, empty, Option.or_none]

/-- A reply of a known class, with key data as deep as it may be, can be viewed as a
record; the object authored from it has no key data, and under each path the value that
the reply shows there. All attributes and the id read the same in the view, in the
authored object and in the view on that. -/
theorem toAuthored_keeps_reads (isOf : data.classPath = objectClass.path) :
    ∃ record, Record.wrap data = .ok record ∧ record.Shows objectClass data ∧
      let object := record.toAuthored
      object.data.classPath = objectClass.path ∧ object.data.keyData = none ∧
        (∀ path, object.data.get? path = data.lookup path) ∧
        (Record.authored object).Shows objectClass data ∧
        (Record.authored object).toView.Shows objectClass data ∧
        (Record.authored object).toView.isView = true := by
  have authored : ∀ path,
      (Record.view objectClass data).toAuthored.data.lookup path = data.lookup path := by
    intro path
    rw [isPlain_toAuthored_view.lookup, get?_toAuthored_view]
  exact ⟨.view objectClass data, wrap_eq_ok_iff.mpr ⟨objectClass, isOf, rfl⟩,
    shows_of_lookup rfl fun _ => rfl, rfl, isPlain_toAuthored_view, get?_toAuthored_view,
    shows_of_lookup rfl authored, shows_of_lookup rfl authored, rfl⟩

/-- Key data in key data: the port stands in all three of the objects and the level in two
of them, and the deepest values are those that stay. -/
theorem toAuthored_keeps_reads_nested :
    let group := ObjectClass.schedulerGroup
    let deepest := group.assemble [("port-id", Storage.uint32.word 3)]
    let middle := (group.assemble [("port-id", Storage.uint32.word 2),
      ("level", Storage.uint32.word 2)]).withKeyData deepest
    let data := (group.assemble [("port-id", Storage.uint32.word 1),
      ("level", Storage.uint32.word 1), ("id", Storage.uint64.word 1)]).withKeyData middle
    data.classPath = group.path ∧ ∃ record, Record.wrap data = .ok record ∧
      record.toAuthored.data.keyData = none ∧
      record.toAuthored.data.get? (group.pathOf "port-id") =
        some (Storage.uint32.word 3) ∧
      record.toAuthored.data.get? (group.pathOf "level") = some (Storage.uint32.word 2) ∧
      (Record.authored record.toAuthored).toView.id = .ok (some 1) := by
  intro group deepest middle data
  have isOf : data.classPath = group.path := rfl
  rcases toAuthored_keeps_reads isOf with
      ⟨record, wrapped, -, -, keyData, stored, -, shows, -⟩
  refine ⟨isOf, record, wrapped, keyData, ?_, ?_, ?_⟩
  · rw [stored]
    decide +kernel
  · rw [stored]
    decide +kernel
  · rw [shows.id]
    decide +kernel

end Record

end SwitchQos
