import Mathlib.Data.List.Induction
import SwitchQos.Proofs.Results
import SwitchQos.Proofs.Text.Number
import SwitchQos.Text.Blank

namespace SwitchQos

/-! The notation in which configuration text writes numbers, as a grammar that mentions no
reader: which texts are numerals, what each of them denotes, and which texts enumerate
numbers. The readers accept these texts and no others. -/

/-! ## White space around a text -/

/-- The text has `core` between white space, and `core` itself neither begins nor ends
with any. -/
structure TrimsTo (chars core : List Char) : Prop where
  around : ∃ front back, chars = front ++ (core ++ back) ∧
    (∀ char ∈ front, isBlank char) ∧ ∀ char ∈ back, isBlank char
  first : ∀ char ∈ core.head?, isBlank char = false
  last : ∀ char ∈ core.reverse.head?, isBlank char = false

private theorem dropWhile_isBlank_append {front rest : List Char}
    (blank : ∀ char ∈ front, isBlank char)
    (solid : ∀ char ∈ rest.head?, isBlank char = false) :
    (front ++ rest).dropWhile isBlank = rest := by
  rw [List.dropWhile_append_of_pos blank]
  cases rest with
  | nil => rfl
  | cons char others => exact List.dropWhile_cons_of_neg (by simp [solid char rfl])

private theorem dropWhile_isBlank_spec (chars : List Char) :
    (∃ front, chars = front ++ chars.dropWhile isBlank ∧ ∀ char ∈ front, isBlank char) ∧
      ∀ char ∈ (chars.dropWhile isBlank).head?, isBlank char = false := by
  constructor
  · exact ⟨chars.takeWhile isBlank, List.takeWhile_append_dropWhile.symm,
      fun char member => List.all_eq_true.mp List.all_takeWhile char member⟩
  · intro char leads
    have solid := List.head?_dropWhile_not isBlank chars
    rw [leads] at solid
    exact solid

theorem trimsTo_trimChars (chars : List Char) : TrimsTo chars (trimChars chars) := by
  rcases dropWhile_isBlank_spec chars with ⟨⟨front, split, blankFront⟩, solid⟩
  rcases dropWhile_isBlank_spec (chars.dropWhile isBlank).reverse with
    ⟨⟨back, splitBack, blankBack⟩, solidBack⟩
  have rest : chars.dropWhile isBlank = trimChars chars ++ back.reverse := by
    rw [← List.reverse_inj, splitBack, List.reverse_append,
      List.reverse_reverse, trimChars, List.reverse_reverse]
  refine ⟨⟨front, back.reverse, rest ▸ split, blankFront, ?_⟩, ?_, ?_⟩
  · intro char member
    exact blankBack char (List.mem_reverse.mp member)
  · intro char leads
    refine solid char ?_
    rw [rest, List.head?_append, Option.mem_def.mp leads]
    rfl
  · rw [trimChars, List.reverse_reverse]
    exact solidBack

/-- A text has one core. -/
theorem trimsTo_iff {chars core : List Char} : TrimsTo chars core ↔
    core = trimChars chars := by
  constructor
  · rintro ⟨⟨front, back, rfl, blankFront, blankBack⟩, first, last⟩
    rw [trimChars]
    by_cases empty : core = []
    · subst empty
      have nothing : (front ++ ([] ++ back)).dropWhile isBlank = [] := by
        rw [List.nil_append, List.dropWhile_append_of_pos blankFront,
          ← List.append_nil back, List.dropWhile_append_of_pos blankBack]
        rfl
      rw [nothing]
      rfl
    · have leads : ∀ char ∈ (core ++ back).head?, isBlank char = false := by
        rw [List.head?_append_of_ne_nil _ empty]
        exact first
      have blankReverse : ∀ char ∈ back.reverse, isBlank char :=
        fun char member => blankBack char (List.mem_reverse.mp member)
      rw [dropWhile_isBlank_append blankFront leads, List.reverse_append,
        dropWhile_isBlank_append blankReverse last, List.reverse_reverse]
  · rintro rfl
    exact trimsTo_trimChars chars

theorem trimChars_eq_self {chars : List Char}
    (solid : ∀ char ∈ chars, isBlank char = false) :
    trimChars chars = chars := by
  apply Eq.symm
  apply trimsTo_iff.mp
  refine ⟨⟨[], [], ?_, ?_, ?_⟩, ?_, ?_⟩
  · rw [List.nil_append, List.append_nil]
  · exact fun _ impossible => nomatch impossible
  · exact fun _ impossible => nomatch impossible
  · exact fun char leads => solid char (List.mem_of_mem_head? leads)
  · exact fun char leads => solid char (List.mem_reverse.mp (List.mem_of_mem_head? leads))

/-! ## Numerals -/

inductive Decimal : List Char → Nat → Prop
  | digit {value : Nat} (small : value < 10) : Decimal [value.digitChar] value
  | append {digits : List Char} {number value : Nat} (front : Decimal digits number)
      (small : value < 10) : Decimal (digits ++ [value.digitChar]) (10 * number + value)

inductive NaturalNumeral : List Char → Nat → Prop
  | plain {digits : List Char} {number : Nat} (decimal : Decimal digits number) :
      NaturalNumeral digits number
  | plus {digits : List Char} {number : Nat} (decimal : Decimal digits number) :
      NaturalNumeral ('+' :: digits) number

inductive IntegerNumeral : List Char → Int → Prop
  | natural {chars : List Char} {number : Nat} (numeral : NaturalNumeral chars number) :
      IntegerNumeral chars number
  | minus {digits : List Char} {number : Nat} (decimal : Decimal digits number) :
      IntegerNumeral ('-' :: digits) (-number)

private theorem exists_digitChar {char : Char} (digit : char.isDigit = true) :
    ∃ value, value < 10 ∧ char = value.digitChar := by
  have range := Char.isDigit_iff_toNat.mp digit
  refine ⟨char.toNat - '0'.toNat, ?_, ?_⟩
  · change _ ≤ _ ∧ _ ≤ 57 at range
    change char.toNat - 48 < 10
    omega
  · have all : ∀ code < 58, 48 ≤ code →
      Char.ofNat code = (code - 48).digitChar := by decide
    have small : char.toNat < 58 := Nat.lt_succ_of_le range.2
    exact (Char.ofNat_toNat char).symm.trans (all char.toNat small range.1)

theorem isBlank_of_isDigit {char : Char} (digit : char.isDigit = true) :
    isBlank char = false := by
  have all : ∀ value < 10, isBlank value.digitChar = false := by decide
  rcases exists_digitChar digit with ⟨value, small, rfl⟩
  exact all value small

theorem Decimal.readDigits {digits : List Char} {number : Nat}
    (decimal : Decimal digits number) :
    readDigits digits = some number := by
  have isDigit : ∀ {value : Nat}, value < 10 → value.digitChar.isDigit = true := by
    intro value small
    rw [Nat.isDigit_digitChar, decide_eq_true small]
  suffices found : digits ≠ [] ∧ digits.all Char.isDigit ∧
      Nat.ofDigitChars 10 digits 0 = number by
    rw [SwitchQos.readDigits, if_pos ⟨found.1, found.2.1⟩, found.2.2]
  induction decimal with
  | @digit value small =>
      refine ⟨List.cons_ne_nil _ _, by simp [isDigit small], ?_⟩
      rw [Nat.ofDigitChars_cons_digitChar_of_lt_ten small]
      exact Nat.zero_add value
  | append front small induction =>
      rcases induction with ⟨present, digits, read⟩
      refine ⟨List.append_ne_nil_of_left_ne_nil present _, ?_, ?_⟩
      · rw [List.all_append, digits]
        simp [isDigit small]
      · rw [Nat.ofDigitChars_append, read,
          Nat.ofDigitChars_cons_digitChar_of_lt_ten small]
        rfl

theorem decimal_of_isDigit {digits : List Char} (present : digits ≠ [])
    (all : digits.all Char.isDigit = true) :
    Decimal digits (Nat.ofDigitChars 10 digits 0) := by
  induction digits using List.reverseRecOn with
  | nil => exact absurd rfl present
  | append_singleton front char induction =>
      rw [List.all_append, Bool.and_eq_true] at all
      rcases exists_digitChar (List.all_eq_true.mp all.2 char List.mem_cons_self) with
        ⟨value, small, rfl⟩
      have read : Nat.ofDigitChars 10 (front ++ [value.digitChar]) 0 =
          10 * Nat.ofDigitChars 10 front 0 + value := by
        rw [Nat.ofDigitChars_append, Nat.ofDigitChars_cons_digitChar_of_lt_ten small]
        rfl
      rw [read]
      by_cases empty : front = []
      · subst empty
        change Decimal [value.digitChar] (10 * 0 + value)
        rw [Nat.mul_zero, Nat.zero_add]
        exact .digit small
      · exact .append (induction empty all.1) small

theorem readDigits_eq_some_iff {chars : List Char} {number : Nat} :
    readDigits chars = some number ↔ Decimal chars number := by
  constructor
  · intro read
    rw [readDigits, Option.ite_none_right_eq_some] at read
    rcases read with ⟨⟨present, digits⟩, same⟩
    exact Option.some.inj same ▸ decimal_of_isDigit present digits
  · exact Decimal.readDigits

theorem Decimal.isDigit_of_mem {digits : List Char} {number : Nat}
    (decimal : Decimal digits number) {char : Char} (member : char ∈ digits) :
    char.isDigit = true := by
  have read := decimal.readDigits
  rw [SwitchQos.readDigits, Option.ite_none_right_eq_some] at read
  exact List.all_eq_true.mp read.1.2 char member

theorem readNatural_eq_some_iff {chars : List Char} {number : Nat} :
    readNatural chars = some number ↔ NaturalNumeral chars number := by
  unfold readNatural
  split
  · rename_i digits
    rw [readDigits_eq_some_iff]
    refine ⟨.plus, fun numeral => ?_⟩
    cases numeral with
    | plain decimal => cases decimal.isDigit_of_mem List.mem_cons_self
    | plus decimal => exact decimal
  · rename_i unsigned
    rw [readDigits_eq_some_iff]
    refine ⟨.plain, fun numeral => ?_⟩
    cases numeral with
    | plain decimal => exact decimal
    | plus decimal => exact absurd rfl (unsigned _)

theorem NaturalNumeral.not_minus {rest : List Char} {number : Nat} :
    ¬NaturalNumeral ('-' :: rest) number := by
  intro numeral
  cases numeral with
  | plain decimal => cases decimal.isDigit_of_mem List.mem_cons_self

private theorem readInteger_minus (digits : List Char) :
    readInteger ('-' :: digits) = (readDigits digits).map fun number : Nat =>
      -(number : Int) := by
  rw [readInteger]
  cases readDigits digits <;> rfl

private theorem readInteger_unsigned {chars : List Char}
    (unsigned : ∀ digits, chars = '-' :: digits → False) :
    readInteger chars = (readNatural chars).map fun number : Nat => (number : Int) := by
  rw [readInteger]
  · cases readNatural chars <;> rfl
  · exact unsigned

theorem readInteger_eq_some_iff {chars : List Char} {number : Int} :
    readInteger chars = some number ↔ IntegerNumeral chars number := by
  by_cases signed : ∃ digits, chars = '-' :: digits
  · rcases signed with ⟨digits, rfl⟩
    simp only [readInteger_minus, Option.map_eq_some_iff, readDigits_eq_some_iff]
    constructor
    · rintro ⟨natural, decimal, rfl⟩
      exact .minus decimal
    · intro numeral
      cases numeral with
      | natural numeral => exact absurd numeral NaturalNumeral.not_minus
      | minus decimal => exact ⟨_, decimal, rfl⟩
  · have unsigned : ∀ digits, chars = '-' :: digits → False :=
      fun digits same => signed ⟨digits, same⟩
    simp only [readInteger_unsigned unsigned, Option.map_eq_some_iff,
      readNatural_eq_some_iff]
    constructor
    · rintro ⟨natural, numeral, rfl⟩
      exact .natural numeral
    · intro numeral
      cases numeral with
      | natural numeral => exact ⟨_, numeral, rfl⟩
      | minus decimal => exact absurd rfl (unsigned _)

/-! ## Enumerations -/

/-- A text that writes the numbers one after another, with a comma between two of them and
white space around each. The empty text writes none. -/
inductive Enumerates : List Char → List Nat → Prop
  | nothing : Enumerates [] []
  | items {pieces : List (List Char)} {numbers : List Nat} (present : pieces ≠ [])
      (each : List.Forall₂ (fun piece number =>
        ∃ core, TrimsTo piece core ∧ NaturalNumeral core number) pieces numbers) :
      Enumerates ([','].intercalate pieces) numbers

theorem comma_not_mem_item {piece core : List Char} {number : Nat}
    (trims : TrimsTo piece core) (numeral : NaturalNumeral core number) :
    ',' ∉ piece := by
  rcases trims.around with ⟨front, back, rfl, blankFront, blankBack⟩
  have solid : ',' ∉ core := by
    intro member
    cases numeral with
    | plain decimal => cases decimal.isDigit_of_mem member
    | plus decimal =>
        cases member with
        | tail _ later => cases decimal.isDigit_of_mem later
  intro member
  rw [List.mem_append, List.mem_append] at member
  rcases member with inFront | inCore | inBack
  · exact absurd (blankFront _ inFront) (by decide)
  · exact solid inCore
  · exact absurd (blankBack _ inBack) (by decide)

private theorem item_iff {piece : List Char} {number : Nat} :
    (∃ core, TrimsTo piece core ∧ NaturalNumeral core number) ↔
      readNatural (trimChars piece) = some number := by
  simp only [trimsTo_iff, exists_eq_left, readNatural_eq_some_iff]

private theorem splitOn_items {pieces : List (List Char)} {numbers : List Nat}
    (present : pieces ≠ [])
    (each : List.Forall₂ (fun piece number =>
      ∃ core, TrimsTo piece core ∧ NaturalNumeral core number) pieces numbers) :
    ([','].intercalate pieces).splitOn ',' = pieces := by
  refine List.splitOn_intercalate _ (fun piece member => ?_) present
  rcases Results.exists_right each member with ⟨number, -, core, trims, numeral⟩
  exact comma_not_mem_item trims numeral

@[simp] theorem enumerates_nil_iff {numbers : List Nat} : Enumerates [] numbers ↔
    numbers = [] := by
  constructor
  · generalize empty : [] = chars
    intro enumerates
    cases enumerates with
    | nothing => rfl
    | items present each =>
        -- A single empty piece is no number.
        have pieces := splitOn_items present each
        rw [← empty] at pieces
        subst pieces
        rcases List.forall₂_cons_left_iff.mp each with ⟨number, _, read, -⟩
        cases item_iff.mp read
  · rintro rfl
    exact .nothing

/-- Splitting a text at its commas finds the items that it enumerates. -/
theorem enumerates_iff_splitOn {chars : List Char} {numbers : List Nat}
    (present : chars ≠ []) :
    Enumerates chars numbers ↔
      List.Forall₂ (fun piece number => readNatural (trimChars piece) = some number)
        (chars.splitOn ',') numbers := by
  simp only [← item_iff]
  constructor
  · intro enumerates
    cases enumerates with
    | nothing => exact absurd rfl present
    | items some each =>
        rw [splitOn_items some each]
        exact each
  · intro each
    have joined : [','].intercalate (chars.splitOn ',') = chars :=
      List.intercalate_splitOn ','
    have enumerates := Enumerates.items (List.splitOn_ne_nil ',' chars) each
    rwa [joined] at enumerates

end SwitchQos
