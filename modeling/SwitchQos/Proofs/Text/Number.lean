import Mathlib.Logic.Function.Defs
import SwitchQos.Text.Number

namespace SwitchQos

/-! A number that is written in decimal reads back, so different numbers have different
texts. -/

theorem readDigits_toDigits (number : Nat) :
    readDigits (Nat.toDigits 10 number) = some number := by
  have digits : (Nat.toDigits 10 number).all Char.isDigit = true :=
    List.all_eq_true.mpr fun char member =>
      Nat.isDigit_of_mem_toDigits (by decide) (by decide) member
  rw [readDigits, if_pos ⟨Nat.toDigits_ne_nil, digits⟩,
    Nat.ofDigitChars_toDigits (by decide) (by decide)]

theorem readInteger_of_readDigits {chars : List Char} {number : Nat}
    (read : readDigits chars = some number) :
    readInteger chars = some (number : Int) := by
  have unsigned : ∀ sign rest, chars = sign :: rest → sign.isDigit = true := by
    rintro sign rest rfl
    rw [readDigits, Option.ite_none_right_eq_some] at read
    exact List.all_eq_true.mp read.1.2 sign List.mem_cons_self
  have natural : readNatural chars = some number := by
    unfold readNatural
    split
    · cases unsigned _ _ rfl
    · exact read
  unfold readInteger
  split
  · cases unsigned _ _ rfl
  · rw [natural]
    rfl

theorem toList_toString_natCast (number : Nat) :
    (toString (number : Int)).toList = Nat.toDigits 10 number := Nat.toList_repr

theorem toList_toString_negSucc (number : Nat) :
    (toString (Int.negSucc number)).toList = '-' :: Nat.toDigits 10 (number + 1) := by
  change ("-" ++ Nat.repr (number + 1)).toList = _
  rw [String.toList_append, Nat.toList_repr]
  rfl

theorem isDigit_or_minus_of_mem {number : Int} {char : Char}
    (member : char ∈ (toString number).toList) : char.isDigit = true ∨ char = '-' := by
  have isDigit {natural : Nat}
      (isOne : char ∈ Nat.toDigits 10 natural) : char.isDigit = true :=
    Nat.isDigit_of_mem_toDigits (by decide) (by decide) isOne
  cases number with
  | ofNat natural =>
      change char ∈ (toString (natural : Int)).toList at member
      rw [toList_toString_natCast] at member
      exact .inl (isDigit member)
  | negSucc natural =>
      rw [toList_toString_negSucc] at member
      rcases List.mem_cons.mp member with isMinus | later
      · exact .inr isMinus
      · exact .inl (isDigit later)

theorem readInteger_toString (number : Int) :
    readInteger (toString number).toList = some number := by
  cases number with
  | ofNat number =>
      change readInteger (toString (number : Int)).toList = _
      rw [toList_toString_natCast]
      exact readInteger_of_readDigits (readDigits_toDigits number)
  | negSucc number =>
      rw [toList_toString_negSucc, readInteger, readDigits_toDigits]
      rfl

theorem toString_int_injective : Function.Injective fun number : Int =>
    toString number := by
  intro left right (same : toString left = toString right)
  have read := readInteger_toString left
  rw [same, readInteger_toString] at read
  exact (Option.some.inj read).symm

end SwitchQos
