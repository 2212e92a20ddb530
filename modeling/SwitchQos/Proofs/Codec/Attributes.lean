import SwitchQos.Proofs.Codec.RoundTrip
import SwitchQos.Proofs.Schema.Paths

namespace SwitchQos

/-! What the codec says about an attribute of an object, in terms of the value
that is kept under its path. -/

namespace Storage

def word (storage : Storage) (number : Nat) : StoreValue := .bytes (storage.write number)

theorem word_injective {storage : Storage} (unsigned : storage.isSigned = false)
    {left right : Nat} (leftFits : left < storage.modulus)
    (rightFits : right < storage.modulus)
    (same : storage.word left = storage.word right) : left = right := by
  rw [← holds_natCast_iff unsigned] at leftFits rightFits
  exact Int.ofNat_inj.mp (write_injective leftFits rightFits (StoreValue.bytes.inj same))

end Storage

namespace AttrSpec

structure IsNatural (spec : AttrSpec) : Prop where
  kind : spec.kind = .scalar
  unsigned : spec.storage.isSigned = false

instance (spec : AttrSpec) : Decidable spec.IsNatural :=
  decidable_of_iff (spec.kind = .scalar ∧ spec.storage.isSigned = false)
    ⟨fun both => ⟨both.1, both.2⟩, fun natural => ⟨natural.kind, natural.unsigned⟩⟩

theorem encode_uint_eq_ok_iff {spec : AttrSpec} (natural : spec.IsNatural) {attr : String}
    {number : Nat} {stored : StoreValue} :
    spec.encode attr (.uint number) = .ok stored ↔
      number < spec.storage.modulus ∧ stored = spec.storage.word number := by
  simp only [encode, natural.kind, AttrValue.asInt?, Results.map_eq_ok_iff,
    Storage.encode_eq_ok_iff, Storage.holds_natCast_iff natural.unsigned, Storage.word]
  constructor
  · rintro ⟨bytes, ⟨fits, rfl⟩, rfl⟩
    exact ⟨fits, rfl⟩
  · rintro ⟨fits, rfl⟩
    exact ⟨_, ⟨fits, rfl⟩, rfl⟩

theorem encode_list_eq_ok {spec : AttrSpec} (kind : spec.kind = .list)
    (unsigned : spec.storage.isSigned = false) {attr : String} {items : List Nat}
    (fit : ∀ item ∈ items, item < spec.storage.modulus) :
    spec.encode attr (.list items) =
      .ok (.list (items.map fun item : Nat => spec.storage.write item)) := by
  simp only [encode, kind, AttrValue.asList?]
  refine Results.map_eq_ok_iff.mpr ⟨_, Results.mapM_eq_ok_iff.mpr ?_, rfl⟩
  rw [List.forall₂_map_right_iff, List.forall₂_same]
  exact fun item member => Storage.encode_eq_ok_iff.mpr
    ⟨(Storage.holds_natCast_iff unsigned).mpr (fit item member), rfl⟩

theorem canonical_uint {spec : AttrSpec} (natural : spec.IsNatural) {number : Nat} :
    spec.canonical (.uint number) = .uint number := by
  simp [canonical, natural.kind, AttrValue.asInt?, Storage.native, natural.unsigned]

end AttrSpec

namespace ObjectClass

variable {objectClass : ObjectClass} {attr : String} {spec : AttrSpec}
  {object : StoreObject}

theorem spec_eq_ok_iff : objectClass.spec attr = .ok spec ↔
    objectClass.spec? attr = some spec := by
  rw [ObjectClass.spec]
  cases objectClass.spec? attr <;> simp

theorem mem_schema_of_spec? (found : objectClass.spec? attr = some spec) :
    (attr, spec) ∈ objectClass.schema := by
  rcases List.lookup_eq_some_iff.mp found with ⟨before, after, split, -⟩
  simp [split]

theorem regular_of_spec? (found : objectClass.spec? attr = some spec) : spec.Regular := by
  have all : ∀ row ∈ objectClass.schema, row.2.kind = .list →
      row.2.storage.isSigned = false := by
    cases objectClass with
    | mapTable mapType | mapEntry mapType => cases mapType <;> decide
    | _ => decide
  exact all _ (mem_schema_of_spec? found)

theorem encode_eq_ok_iff (found : objectClass.spec? attr = some spec) {value : AttrValue}
    {stored : StoreValue} :
    objectClass.encode attr value = .ok stored ↔ spec.encode attr value = .ok stored := by
  rw [ObjectClass.encode, spec_eq_ok_iff.mpr found, Results.ok_bind]

theorem has_of_encode {value : AttrValue} {stored : StoreValue}
    (encoded : objectClass.encode attr value = .ok stored) : objectClass.Has attr := by
  rw [ObjectClass.encode, Results.bind_eq_ok_iff] at encoded
  rcases encoded with ⟨spec, found, -⟩
  exact .of_spec? (spec_eq_ok_iff.mp found)

theorem set_eq_ok_iff {value : AttrValue} {result : StoreObject} :
    objectClass.set object attr value = .ok result ↔
      ∃ stored, objectClass.encode attr value = .ok stored ∧
        result = object.insert (objectClass.pathOf attr) stored := by
  rw [ObjectClass.set, Results.bind_eq_ok_iff]
  refine exists_congr fun stored => and_congr_right fun encoded => ?_
  rw [attrPath_of_has (has_of_encode encoded), Results.ok_bind, Except.ok.injEq, eq_comm]

theorem decode_eq_some_iff (found : objectClass.spec? attr = some spec)
    {value : AttrValue} :
    objectClass.decode attr object = .ok (some value) ↔
      ∃ stored, object.lookup (objectClass.pathOf attr) = some stored ∧
        spec.encode attr value = .ok stored ∧ spec.canonical value = value := by
  have path := attrPath_of_has (Has.of_spec? found)
  rw [ObjectClass.decode, path, Results.ok_bind]
  cases kept : object.lookup (objectClass.pathOf attr) with
  | none => simp
  | some stored =>
      simp only [Results.map_eq_ok_iff, Option.some.injEq, exists_eq_right,
        exists_eq_left', decodeValue, spec_eq_ok_iff.mpr found, path, Results.ok_bind]
      exact AttrSpec.decode_eq_ok_iff (regular_of_spec? found)

theorem decode_eq_none (has : objectClass.Has attr)
    (absent : object.lookup (objectClass.pathOf attr) = none) :
    objectClass.decode attr object = .ok none := by
  rw [ObjectClass.decode, attrPath_of_has has, Results.ok_bind, absent]

theorem decode_congr {other : StoreObject}
    (same : object.lookup (objectClass.pathOf attr) =
      other.lookup (objectClass.pathOf attr)) :
    objectClass.decode attr object = objectClass.decode attr other := by
  rw [ObjectClass.decode, ObjectClass.decode, attrPath]
  cases located : objectClass.attrPath? attr with
  | none => rfl
  | some path =>
      rcases has_of_attrPath? located with ⟨-, rfl⟩
      rw [Results.ok_bind, Results.ok_bind, same]

theorem decode_uint_iff (found : objectClass.spec? attr = some spec)
    (natural : spec.IsNatural) {number : Nat} :
    objectClass.decode attr object = .ok (some (.uint number)) ↔
      number < spec.storage.modulus ∧
        object.lookup (objectClass.pathOf attr) = some (spec.storage.word number) := by
  simp only [decode_eq_some_iff found, AttrSpec.encode_uint_eq_ok_iff natural,
    AttrSpec.canonical_uint natural, and_true]
  constructor
  · rintro ⟨stored, kept, fits, rfl⟩
    exact ⟨fits, kept⟩
  · rintro ⟨fits, kept⟩
    exact ⟨_, kept, fits, rfl⟩

theorem decode_natural (found : objectClass.spec? attr = some spec)
    (natural : spec.IsNatural) {value : AttrValue}
    (read : objectClass.decode attr object = .ok (some value)) :
    ∃ number, value = .uint number := by
  rcases (decode_eq_some_iff found).mp read with ⟨stored, -, encoded, canonical⟩
  simp only [AttrSpec.canonical, natural.kind] at canonical
  cases given : value.asInt? with
  | none => simp [AttrSpec.encode, natural.kind, given] at encoded
  | some number =>
      rw [given] at canonical
      exact ⟨number.toNat, by simpa [Storage.native, natural.unsigned]
        using canonical.symm⟩

theorem decodeNat_eq_some_iff (found : objectClass.spec? attr = some spec)
    (natural : spec.IsNatural) {number : Nat} :
    objectClass.decodeNat attr object = .ok (some number) ↔
      objectClass.decode attr object = .ok (some (.uint number)) := by
  rw [decodeNat, Results.bind_eq_ok_iff]
  constructor
  · rintro ⟨value, read, same⟩
    cases value with
    | none => cases same
    | some value =>
        rcases decode_natural found natural read with ⟨given, rfl⟩
        simp only [AttrValue.asNat?, Except.ok.injEq, Option.some.injEq] at same
        rw [← same]
        exact read
  · intro read
    exact ⟨_, read, rfl⟩

theorem decodeNat_congr {other : StoreObject}
    (same : object.lookup (objectClass.pathOf attr) =
      other.lookup (objectClass.pathOf attr)) :
    objectClass.decodeNat attr object = objectClass.decodeNat attr other := by
  rw [decodeNat, decodeNat, decode_congr same]

def number? (objectClass : ObjectClass) (attr : String)
    (object : StoreObject) : Option Nat :=
  match objectClass.decodeNat attr object with
  | .ok number => number
  | .error _ => none

theorem number?_congr {other : StoreObject}
    (same : object.lookup (objectClass.pathOf attr) =
      other.lookup (objectClass.pathOf attr)) :
    objectClass.number? attr object = objectClass.number? attr other := by
  rw [number?, number?, decodeNat_congr same]

theorem number?_eq_some_iff (found : objectClass.spec? attr = some spec)
    (natural : spec.IsNatural) {number : Nat} :
    objectClass.number? attr object = some number ↔
      number < spec.storage.modulus ∧
        object.lookup (objectClass.pathOf attr) = some (spec.storage.word number) := by
  rw [← decode_uint_iff found natural, ← decodeNat_eq_some_iff found natural, number?]
  cases objectClass.decodeNat attr object <;> simp

end ObjectClass

end SwitchQos
