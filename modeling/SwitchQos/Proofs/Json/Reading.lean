import SwitchQos.Json.Fields
import SwitchQos.Proofs.Results

namespace SwitchQos

/-! What the parts of a document stand for, said as relations between what is written and
a value. A reader is exact for such a relation: it succeeds just on the parts that stand
for a value, and gives this value. Readers of lists, of values that may be null and of
fields are exact where the readers that they are made of are. -/

theorem Numeral.le_of_int? {numeral : Numeral} {number : Int}
    (isInt : numeral.int? = some number) : -countOfBits 63 ≤ number := by
  unfold int? at isInt
  split at isInt
  · split at isInt
    · split at isInt
      · cases isInt
      · cases isInt
        omega
    · split at isInt
      · cases isInt
        omega
      · cases isInt
  · cases isInt

namespace Json

variable {Value : Type} {read : Json → Option Value} {Stands : Json → Value → Prop}

/-- The reader gives a value just where it is what the part stands for. -/
def Reads (read : Json → Option Value) (Stands : Json → Value → Prop) : Prop :=
  ∀ written value, read written = some value ↔ Stands written value

/-! ## Simple values -/

def IsBool (written : Json) (value : Bool) : Prop := written = .bool value

def IsText (written : Json) (content : String) : Prop := written = .text (some content)

def IsInteger (written : Json) (number : Int) : Prop :=
  ∃ numeral : Numeral, written = .number numeral ∧ numeral.int? = some number

def IsInt64 (written : Json) (number : Int) : Prop :=
  written.IsInteger number ∧ -countOfBits 63 ≤ number ∧ number < countOfBits 63

def IsNat (bits : Nat) (written : Json) (number : Nat) : Prop :=
  written.IsInteger number ∧ number < countOfBits bits

theorem reads_bool : Reads bool? IsBool := by
  intro written value
  cases written <;> simp [bool?, IsBool]

theorem reads_text : Reads text? IsText := by
  intro written content
  cases written <;> simp [text?, IsText]

theorem reads_integer : Reads int? IsInteger := by
  intro written number
  cases written <;> simp [int?, IsInteger]

theorem reads_int64 : Reads int64? IsInt64 := by
  intro written number
  simp only [int64?, Option.bind_eq_bind, Option.bind_eq_some_iff,
    Option.ite_none_right_eq_some, Option.some.injEq]
  constructor
  · rintro ⟨_, isInt, small, rfl⟩
    have isInteger := (reads_integer _ _).mp isInt
    have ⟨numeral, _, meaning⟩ := isInteger
    exact ⟨isInteger, Numeral.le_of_int? meaning, small⟩
  · rintro ⟨isInteger, -, small⟩
    exact ⟨number, (reads_integer _ _).mpr isInteger, small, rfl⟩

theorem reads_nat (bits : Nat) : Reads (nat? bits) (IsNat bits) := by
  intro written number
  simp only [nat?, Option.bind_eq_bind, Option.bind_eq_some_iff,
    Option.ite_none_right_eq_some, Option.some.injEq]
  constructor
  · rintro ⟨integer, isInt, ⟨natural, small⟩, rfl⟩
    refine ⟨?_, by omega⟩
    rw [Int.toNat_of_nonneg natural]
    exact (reads_integer _ _).mp isInt
  · rintro ⟨isInteger, small⟩
    have isInt := (reads_integer _ _).mpr isInteger
    exact ⟨number, isInt, ⟨by omega, by omega⟩, Int.toNat_natCast number⟩

/-! ## Lists and values that may be null -/

def Lists (Stands : Json → Value → Prop) (written : Json) (values : List Value) : Prop :=
  ∃ items, written = .array items ∧ List.Forall₂ Stands items values

def ListsMembers {Row : Type} (Stands : JsonText × Json → Row → Prop) (written : Json)
    (rows : List Row) : Prop :=
  ∃ members, written = .object members ∧ List.Forall₂ Stands members rows

def MayBeNull (Stands : Json → Value → Prop) (written : Json) : Option Value → Prop
  | none => written = .null
  | some value => written ≠ .null ∧ Stands written value

theorem forall₂_iff_of_reads (reads : Reads read Stands) {items : List Json}
    {values : List Value} :
    List.Forall₂ (fun item value => read item = some value) items values ↔
      List.Forall₂ Stands items values :=
  ⟨List.Forall₂.imp fun _ _ => (reads _ _).mp, List.Forall₂.imp fun _ _ =>
    (reads _ _).mpr⟩

theorem Reads.items (reads : Reads read Stands) : Reads (items? read) (Lists Stands) := by
  intro written values
  cases written with
  | array items =>
      simp [items?, Lists, Results.mapM_eq_some_iff, forall₂_iff_of_reads reads]
  | null | bool | number | text | object => simp [items?, Lists]

/-- Items can be left to be read later. -/
theorem reads_array : Reads (items? some) fun written items =>
    written = .array items := by
  have reads : Reads some Eq := fun _ _ => by rw [Option.some.injEq]
  intro written items
  rw [reads.items, Lists, List.forall₂_eq_eq_eq]
  simp

theorem Reads.mayBeNull (reads : Reads read Stands) :
    Reads (optional? read) (MayBeNull Stands) := by
  intro written value?
  cases value? with
  | none => cases written <;> simp [optional?, MayBeNull]
  | some value => cases written <;> simp [optional?, MayBeNull, reads _ _]

end Json

/-! ## Fields -/

namespace FieldValues

variable {Value : Type} {read : Json → Option Value} {Stands : Json → Value → Prop}
  {fields : FieldValues} {name : String}

def Gives (fields : FieldValues) (name : String) (Stands : Json → Value → Prop)
    (value : Value) : Prop :=
  ∃ written, fields.lookup name = some written ∧ Stands written value

def GivesOr (fields : FieldValues) (name : String) (default : Value)
    (Stands : Json → Value → Prop) (value : Value) : Prop :=
  match fields.lookup name with
  | some written => Stands written value
  | none => value = default

theorem required?_eq_some_iff (reads : Json.Reads read Stands) {value : Value} :
    fields.required? name read = some value ↔ fields.Gives name Stands value := by
  simp [required?, Gives, Option.bind_eq_some_iff, reads _ _]

theorem optional?_eq_some_iff (reads : Json.Reads read Stands) {default value : Value} :
    fields.optional? name default read = some value ↔
      fields.GivesOr name default Stands value := by
  rw [optional?, GivesOr]
  cases fields.lookup name with
  | none => simp [eq_comm]
  | some written => exact reads _ _

/-! A field is given for a list of fields by its first one of that name. -/

theorem givesOr_nil {default value : Value} :
    GivesOr [] name default Stands value ↔ value = default := .rfl

theorem givesOr_cons_self {written : Json} {default value : Value} :
    GivesOr ((name, written) :: fields) name default Stands value ↔
    Stands written value := by
  simp [GivesOr]

theorem givesOr_cons_of_ne {other : String} {written : Json} {default value : Value}
    (different : name ≠ other) :
    GivesOr ((other, written) :: fields) name default Stands value ↔
      fields.GivesOr name default Stands value := by
  rw [GivesOr, List.lookup_cons, beq_false_of_ne different]
  rfl

theorem givesOr_of_not_mem {default value : Value} (missing : name ∉ fields.map (·.1)) :
    fields.GivesOr name default Stands value ↔ value = default := by
  induction fields with
  | nil => exact givesOr_nil
  | cons field rest induction =>
      have parts := not_or.mp (mt List.mem_cons.mpr missing)
      rw [givesOr_cons_of_ne parts.1, induction parts.2]

/-- Where no name comes again, what the first field leaves is the default for the
others. -/
theorem givesOr_cons_iff {field : String × Json} (distinct : field.1 ∉ fields.map (·.1))
    {default value : Value} :
    GivesOr (field :: fields) name default Stands value ↔
      ∃ middle, GivesOr [field] name default Stands middle ∧
        fields.GivesOr name middle Stands value := by
  obtain ⟨other, written⟩ := field
  by_cases same : name = other
  · subst same
    simp [givesOr_cons_self, givesOr_of_not_mem distinct]
  · simp [givesOr_cons_of_ne same, givesOr_nil]

/-- A property that the default has can be asked for apart. -/
theorem givesOr_and_iff {Has : Value → Prop} {default value : Value}
    (holds : Has default) :
    fields.GivesOr name default
      (fun written value => Stands written value ∧ Has value) value ↔
      fields.GivesOr name default Stands value ∧ Has value := by
  unfold GivesOr
  cases fields.lookup name with
  | some written => rfl
  | none => exact ⟨fun same => ⟨same, same ▸ holds⟩, And.left⟩

end FieldValues

theorem Json.names_of_fields? {declared : List String} {written : Json}
    {fields : FieldValues} (distinct : declared.Nodup)
    (given : written.fields? declared = some fields) :
    (fields.map (·.1)).Nodup ∧ ∀ field ∈ fields, field.1 ∈ declared := by
  cases written with
  | null | bool | number | text => cases given
  | array items =>
      cases (Option.ite_none_right_eq_some.mp given).2
      refine ⟨?_, fun field member => (List.of_mem_zip member).1⟩
      rw [List.zip_eq_zip_take_min, List.map_fst_zip (by simp)]
      exact distinct.sublist (List.take_sublist _ _)
  | object members =>
      obtain ⟨named, -, isGiven⟩ := Option.bind_eq_some_iff.mp given
      obtain ⟨once, isSame⟩ := Option.ite_none_right_eq_some.mp isGiven
      cases isSame
      exact ⟨once, fun field member => of_decide_eq_true (List.mem_filter.mp member).2⟩

end SwitchQos
