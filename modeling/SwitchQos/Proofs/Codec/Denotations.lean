import SwitchQos.Proofs.Codec.Inverse
import SwitchQos.Proofs.Codec.Texts
import SwitchQos.Proofs.Text.Notation

namespace SwitchQos

/-! Configuration text is accepted exactly when it denotes a value that the
attribute can have. What a text denotes is said by the notation of the attribute's
shape alone, so the two readers of numbers and the two places where a range is
checked leave no trace in it. -/

theorem Storage.bounds_of_holds {storage : Storage} {number : Int}
    (holds : storage.Holds number) : -128 ≤ number ∧ number < countOfBits 64 := by
  have room : -128 ≤ storage.least ∧ storage.greatest < countOfBits 64 := by
    cases storage <;> decide
  rcases holds with ⟨least, greatest⟩
  omega

theorem SymbolFamily.ne_empty_of_mem {family : SymbolFamily} {name : String}
    (registered : name ∈ family.members) : name ≠ "" := by
  rintro rfl
  cases family <;> revert registered <;> decide

theorem parseItems_eq_ok_iff {attr text : String} {items : List Nat} :
    parseItems attr text = .ok items ↔
      Enumerates text.toList items ∧ ∀ item ∈ items, item < countOfBits 64 := by
  by_cases empty : text = ""
  · subst empty
    rw [parseItems, if_pos rfl, Except.ok.injEq, String.toList_empty, enumerates_nil_iff]
    constructor
    · rintro rfl
      exact ⟨rfl, fun _ impossible => nomatch impossible⟩
    · exact fun both => both.1.symm
  · rw [parseItems, if_neg empty, Results.mapM_eq_ok_iff,
      enumerates_iff_splitOn (fun none => empty (String.toList_eq_nil_iff.mp none))]
    constructor
    · intro each
      have read : List.Forall₂ (fun piece number =>
          readNatural (trimChars piece) = some number ∧ number < countOfBits 64)
          (text.toList.splitOn ',') items := by
        refine each.imp fun piece number found => ?_
        split at found
        · rename_i other read
          split at found
          · rename_i fits
            cases found
            exact ⟨read, fits⟩
          · cases found
        · cases found
      refine ⟨read.imp fun _ _ both => both.1, fun item member => ?_⟩
      rcases Results.exists_left read member with ⟨_, -, -, fits⟩
      exact fits
    · rintro ⟨read, fit⟩
      refine ((List.forall₂_and_left _ _).mpr ⟨fit, read.flip⟩).flip.imp
        fun piece number both => ?_
      simp only [both.2, both.1, if_true]

namespace AttrSpec

/-- The value that a text with no white space around it denotes for an attribute. -/
inductive Denotes (spec : AttrSpec) (text : String) : AttrValue → Prop
  | number {number : Int} (kind : spec.kind = .scalar)
      (numeral : IntegerNumeral text.toList number) (holds : spec.storage.Holds number) :
      Denotes spec text (spec.storage.native number)
  | symbol {family : SymbolFamily} (kind : spec.kind = .symbol family)
      (registered : text ∈ family.members) : Denotes spec text (.symbol text)
  | list {items : List Nat} (kind : spec.kind = .list)
      (enumerates : Enumerates text.toList items)
      (hold : ∀ item ∈ items, spec.storage.Holds item) :
      Denotes spec text (.list items)

variable {spec : AttrSpec} {text : String} {value : AttrValue}

theorem admits_native (kind : spec.kind = .scalar) {number : Int}
    (holds : spec.storage.Holds number) : spec.Admits (spec.storage.native number) := by
  cases signed : spec.storage.isSigned with
  | true =>
      simp only [Storage.native, signed, if_true]
      exact .int kind holds
  | false =>
      have natural := Int.toNat_of_nonneg (Storage.nonneg_of_holds signed holds)
      simp only [Storage.native, signed, Bool.false_eq_true, if_false]
      exact .uint kind (natural.symm ▸ holds)

theorem denotes_iff (attr : String) :
    spec.Denotes text value ↔ spec.parse attr text = .ok value ∧ spec.Admits value := by
  constructor
  · intro denotes
    cases denotes with
    | @number number kind numeral holds =>
        have bounds := Storage.bounds_of_holds holds
        have room : (countOfBits 64 : Int) ≤ countOfBits 127 ∧
            128 ≤ (countOfBits 127 : Int) := by
          decide
        refine ⟨?_, admits_native kind holds⟩
        simp only [parse, kind, Storage.parse, readInteger_eq_some_iff.mpr numeral]
        rw [if_neg (by omega), if_pos holds]
    | symbol kind registered =>
        refine ⟨?_, .symbol kind registered⟩
        simp only [parse, kind, if_neg (SymbolFamily.ne_empty_of_mem registered)]
    | @list items kind enumerates hold =>
        refine ⟨?_, .list kind hold⟩
        have fits : ∀ item ∈ items, item < countOfBits 64 := fun item member =>
          Int.ofNat_lt.mp (Storage.bounds_of_holds (hold item member)).2
        simp only [parse, kind, parseItems_eq_ok_iff.mpr ⟨enumerates, fits⟩]
        rfl
  · rintro ⟨parsed, admits⟩
    cases kind : spec.kind with
    | scalar =>
        simp only [parse, kind, Storage.parse] at parsed
        split at parsed
        · rename_i number read
          simp only [Results.refusal_eq_ok_iff] at parsed
          rcases parsed with ⟨-, stored⟩
          split at stored
          · rename_i holds
            cases stored
            exact .number kind (readInteger_eq_some_iff.mp read) holds
          · cases stored
        · cases parsed
    | symbol family =>
        simp only [parse, kind, Results.refusal_eq_ok_iff, Except.ok.injEq] at parsed
        rcases parsed with ⟨-, rfl⟩
        cases admits with
        | symbol other registered =>
            cases kind.symm.trans other
            exact .symbol kind registered
    | list =>
        simp only [parse, kind, Results.map_eq_ok_iff, parseItems_eq_ok_iff] at parsed
        rcases parsed with ⟨items, ⟨enumerates, -⟩, rfl⟩
        cases admits with
        | list _ hold => exact .list kind enumerates hold
    | entries => simp [parse, kind] at parsed

theorem Denotes.canonical (denotes : spec.Denotes text value) :
    spec.canonical value = value :=
  canonical_of_parse ((denotes_iff "").mp denotes).1

end AttrSpec

namespace ObjectClass

variable {objectClass : ObjectClass} {attr : String} {spec : AttrSpec} {text : String}
  {stored : StoreValue}

/-- What is stored for a text is what the value that it denotes is stored as. -/
theorem encodeText_denotes_iff (found : objectClass.spec? attr = some spec) :
    objectClass.encodeText attr text = .ok stored ↔
      ∃ value, spec.Denotes (trim text) value ∧ spec.encode attr value = .ok stored := by
  simp only [encodeText_eq_ok_iff, encode_eq_ok_iff found, parseText,
    spec_eq_ok_iff.mpr found, Results.ok_bind, AttrSpec.denotes_iff attr]
  constructor
  · rintro ⟨value, parsed, encoded⟩
    exact ⟨value, ⟨parsed, AttrSpec.admits_of_encode encoded⟩, encoded⟩
  · rintro ⟨value, ⟨parsed, -⟩, encoded⟩
    exact ⟨value, parsed, encoded⟩

theorem exists_encodeText_iff (found : objectClass.spec? attr = some spec) :
    (∃ stored, objectClass.encodeText attr text = .ok stored) ↔
      ∃ value, spec.Denotes (trim text) value := by
  simp only [encodeText_denotes_iff found]
  constructor
  · rintro ⟨-, value, denotes, -⟩
    exact ⟨value, denotes⟩
  · rintro ⟨value, denotes⟩
    have admits := ((AttrSpec.denotes_iff attr).mp denotes).2
    rcases admits.exists_encode attr with ⟨stored, encoded⟩
    exact ⟨stored, value, denotes, encoded⟩

theorem decodeValue_of_denotes (found : objectClass.spec? attr = some spec)
    (encoded : objectClass.encodeText attr text = .ok stored) {value : AttrValue}
    (denotes : spec.Denotes (trim text) value) :
    objectClass.decodeValue attr stored = .ok value := by
  rcases (encodeText_denotes_iff found).mp encoded with ⟨other, otherDenotes, written⟩
  -- A text is parsed in one way, so it denotes one value.
  have same : Except.ok other = Except.ok value :=
    ((AttrSpec.denotes_iff attr).mp otherDenotes).1.symm.trans
      ((AttrSpec.denotes_iff attr).mp denotes).1
  cases same
  rw [decodeValue_eq found, AttrSpec.decode_of_encode (regular_of_spec? found) written,
    denotes.canonical]

/-- For every attribute of every class and every text: the text has one core without white
space around it; it is accepted exactly when the core denotes a value that the attribute
can have; and then that value, the only one the core denotes, is what is read back. -/
theorem encodeText_accepts_notation (listed : (attr, spec) ∈ objectClass.schema)
    (text : String) :
    ∃ core : String, (∀ other : String, TrimsTo text.toList other.toList ↔ other = core) ∧
      ((∃ stored, objectClass.encodeText attr text = .ok stored) ↔
        ∃ value, spec.Denotes core value) ∧
      ∀ stored, objectClass.encodeText attr text = .ok stored →
        ∃ value, objectClass.decodeValue attr stored = .ok value ∧
          ∀ other, spec.Denotes core other ↔ other = value := by
  have found := spec?_eq_some_iff.mpr listed
  refine ⟨trim text, fun other => ?_, exists_encodeText_iff found,
    fun stored encoded => ?_⟩
  · rw [trimsTo_iff, trim, ← String.toList_inj, String.toList_ofList]
  · rcases (exists_encodeText_iff found).mp ⟨stored, encoded⟩ with ⟨value, denotes⟩
    have read := decodeValue_of_denotes found encoded denotes
    refine ⟨value, read, fun other =>
      ⟨fun otherDenotes => ?_, fun same => same ▸ denotes⟩⟩
    exact Except.ok.inj
      ((decodeValue_of_denotes found encoded otherDenotes).symm.trans read)

/-- Items of a list may have a sign, leading zeros and white space of their own. -/
theorem encodeText_accepts_notation_list :
    let profileClass := ObjectClass.schedulerProfile
    ("npu-id-list", AttrSpec.list .uint32) ∈ profileClass.schema ∧
      ∃ stored, profileClass.encodeText "npu-id-list" " +1\t,\n007 " = .ok stored ∧
        profileClass.decodeValue "npu-id-list" stored = .ok (.list [1, 7]) := by
  intro profileClass
  have listed : ("npu-id-list", AttrSpec.list .uint32) ∈ profileClass.schema := by decide
  rcases encodeText_accepts_notation listed " +1\t,\n007 " with
    ⟨core, cores, accepted, reads⟩
  have trims : TrimsTo " +1\t,\n007 ".toList "+1\t,\n007".toList :=
    trimsTo_iff.mpr (by decide +kernel)
  cases (cores _).mp trims
  have first : ∃ core, TrimsTo ['+', '1', '\t'] core ∧ NaturalNumeral core 1 :=
    ⟨['+', '1'], trimsTo_iff.mpr (by decide), readNatural_eq_some_iff.mp (by decide)⟩
  have second : ∃ core, TrimsTo ['\n', '0', '0', '7'] core ∧ NaturalNumeral core 7 :=
    ⟨['0', '0', '7'], trimsTo_iff.mpr (by decide), readNatural_eq_some_iff.mp (by decide)⟩
  have denotes : (AttrSpec.list .uint32).Denotes "+1\t,\n007" (.list [1, 7]) :=
    .list rfl (.items (List.cons_ne_nil _ _) (.cons first (.cons second .nil)))
      (by decide)
  rcases accepted.mpr ⟨_, denotes⟩ with ⟨stored, encoded⟩
  rcases reads stored encoded with ⟨value, read, only⟩
  cases (only _).mp denotes
  exact ⟨listed, stored, encoded, read⟩

end ObjectClass

end SwitchQos
