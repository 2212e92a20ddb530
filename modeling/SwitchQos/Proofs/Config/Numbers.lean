import SwitchQos.Config.Basic
import SwitchQos.Proofs.Codec.Denotations

namespace SwitchQos

/-! The numbers of a configuration go to the codec as text: in decimal, and those of a
list with commas between them. Such a text has no white space and is never the wildcard,
and it denotes these numbers and no others. So a text that is stored stands for numbers
that all fit, and what is read back is the numbers that were written. -/

/-- The numbers that a value gives for an attribute of the kind: one for a scalar, and any
number of them, in order, for a list. -/
def ConfigValue.numbers? (value : ConfigValue) (kind : AttrKind) : Option (List Int) :=
  match kind, value with
  | .scalar, .int number => some [number]
  | .scalar, .uint number => some [(number : Int)]
  | .list, .list items => some items
  | _, _ => none

def AttrValue.numbers? (value : AttrValue) (kind : AttrKind) : Option (List Int) :=
  match kind with
  | .scalar => value.asInt?.map fun number => [number]
  | .list => value.asList?.map fun items => items.map fun item : Nat => (item : Int)
  | _ => none

/-! ## The text of numbers -/

def numbersText (numbers : List Int) : String :=
  ",".intercalate (numbers.map fun number => toString number)

variable {numbers : List Int}

theorem numbersText_singleton (number : Int) : numbersText [number] = toString number :=
  String.intercalate_singleton

theorem ConfigValue.toText_eq_numbersText {value : ConfigValue} {kind : AttrKind}
    (given : value.numbers? kind = some numbers) :
    value.toText = numbersText numbers := by
  unfold numbers? at given
  split at given
  · rename_i number
    cases given
    exact (numbersText_singleton number).symm
  · rename_i number
    cases given
    exact (numbersText_singleton (number : Int)).symm
  · cases given
    rfl
  · cases given

theorem ConfigValue.exists_number {value : ConfigValue}
    (given : value.numbers? .scalar = some numbers) : ∃ number, numbers = [number] := by
  cases value with
  | int number => exact ⟨number, (Option.some.inj given).symm⟩
  | uint number => exact ⟨number, (Option.some.inj given).symm⟩
  | text content => cases given
  | list items => cases given

theorem toList_numbersText (numbers : List Int) : (numbersText numbers).toList =
    [','].intercalate (numbers.map fun number => (toString number).toList) := by
  rw [numbersText, String.toList_intercalate, List.map_map]
  rfl

theorem isDigit_or_minus_or_comma_of_mem {char : Char}
    (member : char ∈ (numbersText numbers).toList) :
    char.isDigit = true ∨ char = '-' ∨ char = ',' := by
  have single {number : Int} (isOne : char ∈ (toString number).toList) :
      char.isDigit = true ∨ char = '-' ∨ char = ',' :=
    (isDigit_or_minus_of_mem isOne).imp_right .inl
  rw [toList_numbersText] at member
  induction numbers with
  | nil => cases member
  | cons first rest induction =>
      cases rest with
      | nil =>
          rw [List.map_singleton, List.intercalate_singleton] at member
          exact single member
      | cons second others =>
          rw [List.map_cons, List.map_cons, List.intercalate_cons_cons, List.append_assoc,
            List.mem_append, List.mem_append, List.mem_singleton] at member
          rcases member with own | isComma | later
          · exact single own
          · exact .inr (.inr isComma)
          · exact induction later

theorem trimChars_numbersText (numbers : List Int) :
    trimChars (numbersText numbers).toList = (numbersText numbers).toList := by
  apply trimChars_eq_self
  intro char member
  rcases isDigit_or_minus_or_comma_of_mem member with digit | rfl | rfl
  · exact isBlank_of_isDigit digit
  · decide
  · decide

theorem trim_numbersText (numbers : List Int) :
    trim (numbersText numbers) = numbersText numbers := by
  rw [trim, trimChars_numbersText, String.ofList_toList]

theorem numbersText_ne_wildcard (numbers : List Int) :
    numbersText numbers ≠ wildcard := by
  intro same
  have member : 'a' ∈ (numbersText numbers).toList := by
    rw [same]
    decide
  rcases isDigit_or_minus_or_comma_of_mem member with digit | isMinus | isComma
  · cases digit
  · cases isMinus
  · cases isComma

/-! ## What the text denotes -/

theorem IntegerNumeral.eq_of_toString {number other : Int}
    (numeral : IntegerNumeral (toString number).toList other) : other = number := by
  have read := readInteger_eq_some_iff.mpr numeral
  rw [readInteger_toString] at read
  exact (Option.some.inj read).symm

private theorem eq_of_readNatural {number : Int} {item : Nat}
    (read : readNatural (trimChars (toString number).toList) = some item) :
    number = (item : Int) := by
  rw [← numbersText_singleton, trimChars_numbersText, numbersText_singleton] at read
  exact (IntegerNumeral.eq_of_toString (.natural (readNatural_eq_some_iff.mp read))).symm

theorem Enumerates.eq_of_numbersText {items : List Nat}
    (enumerates : Enumerates (numbersText numbers).toList items) :
    items.map (fun item : Nat => (item : Int)) = numbers := by
  cases numbers with
  | nil =>
      rw [enumerates_nil_iff.mp enumerates]
      rfl
  | cons first rest =>
      let pieces := (first :: rest).map fun number : Int => (toString number).toList
      have split : (numbersText (first :: rest)).toList.splitOn ',' = pieces := by
        rw [toList_numbersText]
        refine List.splitOn_intercalate _ (fun piece member isIn => ?_)
          (List.cons_ne_nil _ _)
        rcases List.mem_map.mp member with ⟨number, -, rfl⟩
        rcases isDigit_or_minus_of_mem isIn with digit | isMinus
        · cases digit
        · cases isMinus
      have present : (numbersText (first :: rest)).toList ≠ [] := by
        intro empty
        rw [empty] at split
        have nothing : [] = (toString first).toList := (List.cons.inj split).1
        have read := readInteger_toString first
        rw [← nothing] at read
        cases read
      rw [enumerates_iff_splitOn present, split, List.forall₂_map_left_iff] at enumerates
      have same : List.Forall₂
        (fun number item => number = ((item : Nat) : Int)) (first :: rest)
          items := enumerates.imp fun _ _ => eq_of_readNatural
      rw [← List.forall₂_map_right_iff, List.forall₂_eq_eq_eq] at same
      exact same.symm

/-- The text of numbers denotes these numbers, if anything, and then they all fit. -/
theorem AttrSpec.Denotes.numbers_eq {spec : AttrSpec} {value : ConfigValue}
    {read : AttrValue} (denotes : spec.Denotes (numbersText numbers) read)
    (given : value.numbers? spec.kind = some numbers) :
    read.numbers? spec.kind = some numbers ∧
    ∀ number ∈ numbers, spec.storage.Holds number := by
  cases denotes with
  | number kind numeral holds =>
      rw [kind] at given ⊢
      rcases ConfigValue.exists_number given with ⟨number, rfl⟩
      rw [numbersText_singleton] at numeral
      rcases IntegerNumeral.eq_of_toString numeral with rfl
      rw [AttrValue.numbers?, Storage.asInt?_native holds, List.forall_mem_singleton]
      exact ⟨rfl, holds⟩
  | symbol kind =>
      rw [kind] at given
      cases value <;> cases given
  | list kind enumerates hold =>
      rw [kind]
      rcases enumerates.eq_of_numbersText with rfl
      exact ⟨rfl, List.forall_mem_map.mpr hold⟩

/-! ## What is stored -/

def ObjectClass.Reads (objectClass : ObjectClass) (attr : String) (kind : AttrKind)
    (object : StoreObject) (numbers : List Int) : Prop :=
  ∃ read, objectClass.decode attr object = .ok (some read) ∧
  read.numbers? kind = some numbers

def ObjectClass.Assigns (objectClass : ObjectClass) (values : String → Option ConfigValue)
    (attr : String) (spec : AttrSpec) (numbers : List Int) : Prop :=
  objectClass.spec? attr = some spec ∧
    ∃ value, values attr = some value ∧ value.numbers? spec.kind = some numbers

/-- Some number that is given has no form in the storage of its attribute. -/
def ObjectClass.Overflows (objectClass : ObjectClass)
    (values : String → Option ConfigValue) :
    Prop :=
  ∃ attr spec numbers, objectClass.Assigns values attr spec numbers ∧
    ∃ number ∈ numbers, ¬spec.storage.Holds number

namespace ObjectClass

variable {objectClass : ObjectClass} {attr : String} {spec : AttrSpec}
  {value : ConfigValue} {stored : StoreValue} {object : StoreObject}

theorem reads_of_encodeText (found : objectClass.spec? attr = some spec)
    (given : value.numbers? spec.kind = some numbers)
    (encoded : objectClass.encodeText attr value.toText = .ok stored)
    (kept : object.lookup (objectClass.pathOf attr) = some stored) :
    (∀ number ∈ numbers, spec.storage.Holds number) ∧
      objectClass.Reads attr spec.kind object numbers := by
  rcases (encodeText_denotes_iff found).mp encoded with ⟨read, denotes, -⟩
  have decoded : objectClass.decode attr object = .ok (some read) := by
    rw [decode, attrPath_of_has (.of_spec? found), Results.ok_bind, kept]
    exact congrArg (Except.map some) (decodeValue_of_denotes found encoded denotes)
  rw [ConfigValue.toText_eq_numbersText given, trim_numbersText] at denotes
  rcases denotes.numbers_eq given with ⟨same, hold⟩
  exact ⟨hold, read, decoded, same⟩

end ObjectClass

end SwitchQos
