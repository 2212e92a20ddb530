import SwitchQos.Proofs.Codec.Attributes
import SwitchQos.Proofs.Object.KeyData

namespace SwitchQos

/-! Storing and reading are inverse to each other for every attribute of every class.
The values that can be stored are those of the attribute's shape whose numbers fit, and
each stored value stands for exactly one of them in canonical form. -/

theorem SymbolFamily.holds_code {family : SymbolFamily} {name : String} {code : Nat}
    (encoded : family.encode name = .ok code) (storage : Storage) :
    storage.Holds code := by
  have few : code ≤ 4 := by
    rcases encode_eq_ok_iff.mp encoded with ⟨index, listed, rfl⟩
    have inside := (List.getElem?_eq_some_iff.mp listed).1
    cases family <;> simp [members] at inside <;> omega
  have room : storage.least ≤ 0 ∧ 4 ≤ storage.greatest := by
    cases storage <;> decide
  exact ⟨by omega, by omega⟩

theorem SymbolFamily.exists_code_iff {family : SymbolFamily} {name : String} :
    (∃ code, family.encode name = .ok code) ↔ name ∈ family.members := by
  simp only [encode_eq_ok_iff, List.mem_iff_getElem?]
  constructor
  · rintro ⟨code, index, listed, -⟩
    exact ⟨index, listed⟩
  · rintro ⟨index, listed⟩
    exact ⟨index + 1, index, listed, rfl⟩

namespace AttrSpec

variable {spec : AttrSpec} {attr : String} {value : AttrValue} {stored : StoreValue}

/-! ## What can be stored -/

/-- The values that an attribute can have: they are of its shape, and their numbers
fit into its storage. A number may come in either form. -/
inductive Admits (spec : AttrSpec) : AttrValue → Prop
  | uint {number : Nat} (kind : spec.kind = .scalar) (holds : spec.storage.Holds number) :
      Admits spec (.uint number)
  | int {number : Int} (kind : spec.kind = .scalar) (holds : spec.storage.Holds number) :
      Admits spec (.int number)
  | symbol {family : SymbolFamily} {name : String} (kind : spec.kind = .symbol family)
      (registered : name ∈ family.members) : Admits spec (.symbol name)
  | list {items : List Nat} (kind : spec.kind = .list)
      (hold : ∀ item ∈ items, spec.storage.Holds item) : Admits spec (.list items)
  | objects {members : List StoreObject} (kind : spec.kind = .entries) :
      Admits spec (.objects members)

theorem Admits.exists_encode (admits : spec.Admits value) (attr : String) :
    ∃ stored, spec.encode attr value = .ok stored := by
  cases admits with
  | uint kind holds | int kind holds =>
      simp [encode, kind, AttrValue.asInt?, Storage.encode, holds, Except.map]
  | symbol kind registered =>
      rcases SymbolFamily.exists_code_iff.mpr registered with ⟨code, encoded⟩
      have holds := SymbolFamily.holds_code encoded spec.storage
      simp [encode, kind, AttrValue.asSymbol?, encoded, Storage.encode, holds, Except.map]
  | @list items kind hold =>
      have each : ∀ item ∈ items, ∃ bytes,
          spec.storage.encode attr (item : Nat) = .ok bytes :=
        fun item member => ⟨_, Storage.encode_eq_ok_iff.mpr ⟨hold item member, rfl⟩⟩
      rcases Results.exists_mapM each with ⟨contents, written, -⟩
      exact ⟨.list contents, by simp [encode, kind, AttrValue.asList?,
        written, Except.map]⟩
  | objects kind => simp [encode, kind, AttrValue.asObjects?]

theorem admits_of_encode (encoded : spec.encode attr value = .ok stored) :
    spec.Admits value := by
  cases kind : spec.kind with
  | scalar =>
      simp only [encode, kind] at encoded
      cases value with
      | uint number | int number =>
          rcases Results.map_eq_ok_iff.mp encoded with ⟨bytes, written, -⟩
          have holds := (Storage.encode_eq_ok_iff.mp written).1
          first | exact .uint kind holds | exact .int kind holds
      | symbol _ | list _ | objects _ => cases encoded
  | symbol family =>
      simp only [encode, kind] at encoded
      cases value with
      | symbol name =>
          rcases Results.bind_eq_ok_iff.mp encoded with ⟨code, found, -⟩
          exact .symbol kind (SymbolFamily.exists_code_iff.mp ⟨code, found⟩)
      | uint _ | int _ | list _ | objects _ => cases encoded
  | list =>
      simp only [encode, kind] at encoded
      cases value with
      | list items =>
          rcases Results.map_eq_ok_iff.mp encoded with ⟨contents, written, -⟩
          refine .list kind fun item member => ?_
          rcases Results.exists_right (Results.mapM_eq_ok_iff.mp written) member with
              ⟨bytes, -, itemWritten⟩
          exact (Storage.encode_eq_ok_iff.mp itemWritten).1
      | uint _ | int _ | symbol _ | objects _ => cases encoded
  | entries =>
      simp only [encode, kind] at encoded
      cases value with
      | objects members => exact .objects kind
      | uint _ | int _ | symbol _ | list _ => cases encoded

theorem exists_encode_iff :
    (∃ stored, spec.encode attr value = .ok stored) ↔ spec.Admits value :=
  ⟨fun ⟨_, encoded⟩ => admits_of_encode encoded, fun admits => admits.exists_encode attr⟩

/-! ## Canonical form -/

/-- Bringing a number into the form of its storage does not change what it denotes. -/
theorem Admits.asInt?_canonical (admits : spec.Admits value)
    (kind : spec.kind = .scalar) :
    (spec.canonical value).asInt? = value.asInt? := by
  cases admits with
  | uint _ holds | int _ holds =>
      simp only [canonical, kind]
      exact Storage.asInt?_native holds
  | symbol other | list other | objects other => cases kind.symm.trans other

theorem Admits.encode_canonical (admits : spec.Admits value) (attr : String) :
    spec.encode attr (spec.canonical value) = spec.encode attr value := by
  cases kind : spec.kind with
  | scalar => simp only [encode, kind, admits.asInt?_canonical kind]
  | symbol family | list | entries => simp [canonical, kind]

theorem Admits.canonical_canonical (admits : spec.Admits value) :
    spec.canonical (spec.canonical value) = spec.canonical value := by
  cases kind : spec.kind with
  | scalar =>
      have same := admits.asInt?_canonical kind
      simp only [canonical, kind] at same ⊢
      rw [same]
      cases value.asInt? <;> rfl
  | symbol family | list | entries => simp [canonical, kind]

theorem decode_of_encode (regular : spec.Regular)
    (encoded : spec.encode attr value = .ok stored)
    (path : String) : spec.decode path stored = .ok (spec.canonical value) := by
  have admits := admits_of_encode encoded
  have again := (admits.encode_canonical attr).trans encoded
  exact (decode_eq_ok_iff regular).mpr ⟨again, admits.canonical_canonical⟩

end AttrSpec

/-! ## Attributes of a class -/

namespace ObjectClass

variable {objectClass : ObjectClass} {attr : String} {spec : AttrSpec}

theorem spec?_eq_some_iff :
    objectClass.spec? attr = some spec ↔ (attr, spec) ∈ objectClass.schema := by
  refine ⟨mem_schema_of_spec?, fun listed => ?_⟩
  have distinct : (objectClass.schema.map (·.1)).Nodup := by
    cases objectClass with
    | mapTable mapType | mapEntry mapType => cases mapType <;> decide
    | _ => decide
  rcases List.append_of_mem listed with ⟨before, after, split⟩
  refine List.lookup_eq_some_iff.mpr ⟨before, after, split, fun row member => ?_⟩
  rw [split, List.map_append, List.map_cons] at distinct
  have apart :=
    (List.nodup_append.mp distinct).2.2 row.1 (List.mem_map_of_mem member) attr
    List.mem_cons_self
  exact bne_iff_ne.mpr (Ne.symm apart)

theorem decodeValue_eq (found : objectClass.spec? attr = some spec)
    (stored : StoreValue) :
    objectClass.decodeValue attr stored =
      spec.decode (objectClass.pathOf attr) stored := by
  rw [decodeValue, spec_eq_ok_iff.mpr found, Results.ok_bind,
    attrPath_of_has (.of_spec? found), Results.ok_bind]

/-- For every attribute of every class: a value can be stored exactly when it is of the
attribute's shape and its numbers fit; stored by itself or in an object, it reads back
in canonical form; and every stored value that can be read is the one that the value
read is stored as. -/
theorem encode_decode_inverse (listed : (attr, spec) ∈ objectClass.schema) :
    (∀ value, (∃ stored, objectClass.encode attr value = .ok stored) ↔
      spec.Admits value) ∧
    (∀ value stored, objectClass.encode attr value = .ok stored →
      objectClass.decodeValue attr stored = .ok (spec.canonical value) ∧
      ∀ object : StoreObject, object.IsPlain → ∃ written,
        objectClass.set object attr value = .ok written ∧
        objectClass.decode attr written = .ok (some (spec.canonical value))) ∧
    ∀ stored value, objectClass.decodeValue attr stored = .ok value →
      objectClass.encode attr value = .ok stored := by
  have found := spec?_eq_some_iff.mpr listed
  have regular := regular_of_spec? found
  refine ⟨fun value => ?_, fun value stored encoded => ⟨?_, fun object plain => ?_⟩,
    fun stored value read => ?_⟩
  · simp only [encode_eq_ok_iff found, AttrSpec.exists_encode_iff]
  · rw [decodeValue_eq found]
    exact AttrSpec.decode_of_encode regular ((encode_eq_ok_iff found).mp encoded) _
  · refine ⟨_, set_eq_ok_iff.mpr ⟨stored, encoded, rfl⟩, ?_⟩
    have admits := AttrSpec.admits_of_encode ((encode_eq_ok_iff found).mp encoded)
    refine (decode_eq_some_iff found).mpr ⟨stored, ?_, ?_, admits.canonical_canonical⟩
    · rw [StoreObject.IsPlain.lookup (StoreObject.isPlain_insert.mpr plain),
        StoreObject.get?_insert_self]
    · exact (admits.encode_canonical attr).trans ((encode_eq_ok_iff found).mp encoded)
  · rw [decodeValue_eq found] at read
    exact (encode_eq_ok_iff found).mpr ((AttrSpec.decode_eq_ok_iff regular).mp read).1

/-- A signed attribute takes a natural number, and gives it back as an integer; beyond
its range it takes none. -/
theorem encode_decode_inverse_signed :
    let entryClass := ObjectClass.mapEntry .tcToPriorityGroup
    ("priority-group", AttrSpec.scalar .int8) ∈ entryClass.schema ∧
      entryClass.encode "priority-group" (.uint 7) = .ok (.bytes [7]) ∧
      entryClass.decodeValue "priority-group" (.bytes [7]) = .ok (.int 7) ∧
      entryClass.encode "priority-group" (.int (-2)) = .ok (.bytes [254]) ∧
      ¬∃ stored, entryClass.encode "priority-group" (.uint 128) = .ok stored := by
  intro entryClass
  have listed : ("priority-group", AttrSpec.scalar .int8) ∈ entryClass.schema := by decide
  rcases encode_decode_inverse listed with ⟨possible, forward, backward⟩
  have encoded : entryClass.encode "priority-group" (.uint 7) = .ok (.bytes [7]) := by
    decide +kernel
  have read : entryClass.decodeValue "priority-group" (.bytes [254]) =
      .ok (.int (-2)) := by
    decide +kernel
  refine ⟨listed, encoded, (forward _ _ encoded).1, backward _ _ read, fun stored => ?_⟩
  cases (possible _).mp stored with
  | uint _ holds => exact absurd holds (by decide)

end ObjectClass

end SwitchQos
