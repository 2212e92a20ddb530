import SwitchQos.Codec.Basic
import SwitchQos.Proofs.Results
import SwitchQos.Proofs.Schema.Binary
import SwitchQos.Proofs.Schema.Symbols

namespace SwitchQos

/-! Storing a value and reading it back. A value that was read is in canonical
form: the form of an integer follows the signedness of its storage. Reading is
then exactly the inverse of storing. -/

namespace Storage

theorem encode_eq_ok_iff {storage : Storage} {attr : String} {number : Int}
    {bytes : List UInt8} :
    storage.encode attr number = .ok bytes ↔
      storage.Holds number ∧ storage.write number = bytes := by
  by_cases holds : storage.Holds number <;> simp [encode, holds]

theorem decode_eq_ok_iff {storage : Storage} {path : String} {number : Int}
    {bytes : List UInt8} :
    storage.decode path bytes = .ok number ↔
      storage.Holds number ∧ storage.write number = bytes := by
  have read : storage.decode path bytes = .ok number ↔
      storage.read? bytes = some number := by
    rw [decode]
    cases storage.read? bytes <;> simp
  rw [read]
  constructor
  · exact write_of_read?
  · rintro ⟨holds, rfl⟩
    exact read?_write holds

theorem nonneg_of_holds {storage : Storage} (unsigned : storage.isSigned = false)
    {number : Int} (holds : storage.Holds number) : 0 ≤ number := by
  simpa [least, unsigned] using holds.1

@[simp] theorem asInt?_native {storage : Storage} {number : Int}
    (holds : storage.Holds number) : (storage.native number).asInt? = some number := by
  cases signed : storage.isSigned with
  | true => simp [native, signed, AttrValue.asInt?]
  | false =>
      have natural := Int.toNat_of_nonneg (nonneg_of_holds signed holds)
      simp only [native, signed, Bool.false_eq_true, if_false, AttrValue.asInt?, natural]

end Storage

namespace AttrSpec

def canonical (spec : AttrSpec) (value : AttrValue) : AttrValue :=
  match spec.kind, value.asInt? with
  | .scalar, some number => spec.storage.native number
  | _, _ => value

def Regular (spec : AttrSpec) : Prop := spec.kind = .list → spec.storage.isSigned = false

private theorem scalar_decode_iff {spec : AttrSpec} (kind : spec.kind = .scalar)
    {attr path : String} {value : AttrValue} {stored : StoreValue} :
    spec.decode path stored = .ok value ↔
      spec.encode attr value = .ok stored ∧ spec.canonical value = value := by
  cases stored with
  | list items | entries members =>
      simp only [decode, encode, kind]
      cases value.asInt? <;> simp [Results.map_eq_ok_iff]
  | bytes content =>
      simp only [decode, encode, canonical, kind, Results.map_eq_ok_iff,
        Storage.decode_eq_ok_iff]
      constructor
      · rintro ⟨number, ⟨holds, rfl⟩, rfl⟩
        simp [Storage.asInt?_native holds, Storage.encode, holds, Except.map]
      · cases given : value.asInt? with
        | none => simp
        | some number =>
            simp only [Results.map_eq_ok_iff, Storage.encode_eq_ok_iff]
            rintro ⟨⟨bytes, written, same⟩, canonical⟩
            cases same
            exact ⟨number, written, canonical⟩

private theorem symbol_decode_iff {spec : AttrSpec} {family : SymbolFamily}
    (kind : spec.kind = .symbol family) {attr path : String} {value : AttrValue}
    {stored : StoreValue} :
    spec.decode path stored = .ok value ↔
      spec.encode attr value = .ok stored ∧ spec.canonical value = value := by
  have canonical : spec.canonical value = value := by
    simp [AttrSpec.canonical, kind]
  simp only [canonical, and_true]
  cases stored with
  | list items | entries members =>
      simp only [decode, encode, kind]
      cases value.asSymbol? <;> simp [Results.bind_eq_ok_iff, Results.map_eq_ok_iff]
  | bytes content =>
      simp only [decode, encode, kind, Results.bind_eq_ok_iff, Results.map_eq_ok_iff,
        Storage.decode_eq_ok_iff, SymbolFamily.symbol_eq_ok_iff]
      constructor
      · rintro ⟨code, ⟨holds, rfl⟩, name, encoded, rfl⟩
        have positive : ((code.toNat : Nat) : Int) = code := by
          rcases SymbolFamily.encode_eq_ok_iff.mp encoded with ⟨index, -, same⟩
          omega
        simp [AttrValue.asSymbol?, encoded, positive, Storage.encode, holds, Except.map]
      · cases given : value.asSymbol? with
        | none => simp
        | some name =>
            simp only [Results.bind_eq_ok_iff, Results.map_eq_ok_iff,
              Storage.encode_eq_ok_iff]
            rintro ⟨code, encoded, bytes, written, same⟩
            cases same
            refine ⟨code, written, name, by simpa using encoded, ?_⟩
            cases value with
            | symbol own => exact congrArg AttrValue.symbol (Option.some.inj given).symm
            | uint _ | int _ | list _ | objects _ => cases given

private theorem list_decode_iff {spec : AttrSpec} (kind : spec.kind = .list)
    (unsigned : spec.storage.isSigned = false) {attr path : String} {value : AttrValue}
    {stored : StoreValue} :
    spec.decode path stored = .ok value ↔
      spec.encode attr value = .ok stored ∧ spec.canonical value = value := by
  have canonical : spec.canonical value = value := by
    simp [AttrSpec.canonical, kind]
  simp only [canonical, and_true]
  cases stored with
  | bytes content | entries members =>
      simp only [decode, encode, kind]
      cases value.asList? <;> simp [Results.map_eq_ok_iff]
  | list contents =>
      have item : ∀ (content : List UInt8) (number : Nat),
          (spec.storage.decode path content).map Int.toNat = .ok number ↔
            spec.storage.encode attr number = .ok content := by
        intro content number
        simp only [Results.map_eq_ok_iff, Storage.decode_eq_ok_iff,
          Storage.encode_eq_ok_iff]
        constructor
        · rintro ⟨given, ⟨holds, written⟩, rfl⟩
          have natural : ((given.toNat : Nat) : Int) = given :=
            Int.toNat_of_nonneg (Storage.nonneg_of_holds unsigned holds)
          rw [natural]
          exact ⟨holds, written⟩
        · rintro ⟨holds, written⟩
          exact ⟨number, ⟨holds, written⟩, rfl⟩
      simp only [decode, encode, kind, Results.map_eq_ok_iff,
        Results.mapM_eq_ok_iff, item]
      constructor
      · rintro ⟨items, related, rfl⟩
        refine (Results.map_eq_ok_iff).mpr ⟨contents, ?_, rfl⟩
        exact Results.mapM_eq_ok_iff.mpr related.flip
      · cases given : value.asList? with
        | none => simp
        | some items =>
            simp only [Results.map_eq_ok_iff, Results.mapM_eq_ok_iff]
            rintro ⟨written, related, same⟩
            cases same
            refine ⟨items, related.flip, ?_⟩
            cases value with
            | list own => exact congrArg AttrValue.list (Option.some.inj given).symm
            | uint _ | int _ | symbol _ | objects _ => cases given

private theorem entries_decode_iff {spec : AttrSpec} (kind : spec.kind = .entries)
    {attr path : String} {value : AttrValue} {stored : StoreValue} :
    spec.decode path stored = .ok value ↔
      spec.encode attr value = .ok stored ∧ spec.canonical value = value := by
  have canonical : spec.canonical value = value := by
    simp [AttrSpec.canonical, kind]
  simp only [canonical, and_true]
  cases stored <;> cases value <;>
    simp [decode, encode, kind, AttrValue.asObjects?, eq_comm]

/-- Reading inverts storing: a value is read from exactly that stored form which
it is stored as, in canonical form. -/
theorem decode_eq_ok_iff {spec : AttrSpec} (regular : spec.Regular) {attr path : String}
    {value : AttrValue} {stored : StoreValue} :
    spec.decode path stored = .ok value ↔
      spec.encode attr value = .ok stored ∧ spec.canonical value = value := by
  cases kind : spec.kind with
  | scalar => exact scalar_decode_iff kind
  | symbol family => exact symbol_decode_iff kind
  | list => exact list_decode_iff kind (regular kind)
  | entries => exact entries_decode_iff kind

end AttrSpec

end SwitchQos
