import SwitchQos.Json.Double

namespace SwitchQos

/-! Numbers in documents are kept as they are written: an integer written with a
fraction or an exponent is not an integer to its readers. -/

/-- The number `significand * 10 ^ exponent`, negated where a minus sign stands
in front. Of a number with very many digits it is the leading part. -/
structure Numeral where
  negative : Bool := false
  significand : Nat
  exponent : Int := 0
  /-- Written with digits alone, and none of them left out. -/
  whole : Bool := true
  deriving DecidableEq, Repr

namespace Numeral

/-! ## Reading -/

/-- Digits of an integer part: a zero stands in front of nothing else. -/
def isIntegerPart : List Char → Bool
  | [] => false
  | ['0'] => true
  | '0' :: _ => false
  | _ => true

def readFraction : List Char → Option (List Char × List Char)
  | '.' :: rest =>
      let digits := rest.takeWhile Char.isDigit
      if digits.isEmpty then none else some (digits, rest.dropWhile Char.isDigit)
  | chars => some ([], chars)

def readExponent : List Char → Option (Option Int)
  | [] => some none
  | 'e' :: rest | 'E' :: rest => (readInteger rest).map some
  | _ => none

/-- Put digits behind a number as long as it fits into 64 bits, and count the
digits that are left. -/
def appendDigits (number : Nat) : List Char → Nat × Nat
  | [] => (number, 0)
  | digit :: rest =>
      let longer := 10 * number + (digit.toNat - '0'.toNat)
      if longer < countOfBits 64 then appendDigits longer rest
        else (number, rest.length + 1)

example : appendDigits 1844674407370955161 ['5', '0'] =
    (18446744073709551615, 1) := by decide
example : appendDigits 1844674407370955161 ['6', '0'] =
    (1844674407370955161, 2) := by decide

/-- A digit left out of the integer part counts as a power of ten; digits of the
fraction may still follow the ones kept. -/
def readUnsigned (negative : Bool) (chars : List Char) : Option Numeral := do
  let integerPart := chars.takeWhile Char.isDigit
  let (fraction, rest) ← readFraction (chars.dropWhile Char.isDigit)
  let exponent ← readExponent rest
  let (leading, leftOut) := appendDigits 0 integerPart
  let (significand, unused) := appendDigits leading fraction
  if isIntegerPart integerPart then
    some
      { negative
        significand
        exponent := exponent.getD 0 + leftOut - (fraction.length - unused : Nat)
        whole := fraction.isEmpty && exponent.isNone && leftOut = 0 }
  else
    none

def ofChars? : List Char → Option Numeral
  | '-' :: rest => readUnsigned true rest
  | chars => readUnsigned false chars

example : ofChars? ['-', '1', '0'] =
    some { negative := true, significand := 10 } := by decide
example : ofChars? ['1', '.', '5', 'e', '3'] =
    some { significand := 15, exponent := 2, whole := false } := by decide
example : ofChars? ['0', '1'] = none := by decide
example : ofChars? ['1', '.'] = none := by decide

/-! ## Meaning -/

/-- The integer, if it is written as one and fits into 64 bits, with a sign or
without. A zero with a minus sign does not count as an integer. -/
def int? (numeral : Numeral) : Option Int :=
  if numeral.whole then
    if numeral.negative then
      if numeral.significand = 0 ∨ countOfBits 63 < numeral.significand then none
      else some (-(numeral.significand : Int))
    else if numeral.significand < countOfBits 64 then some numeral.significand
    else none
  else none

def greatestPower : Nat := 308

/-- Whether the number lies in the range of doubles. It is taken as the double
nearest to the significand times the double nearest to the power of ten, so just
below the end of the range it may count as too large. -/
def isFinite (numeral : Numeral) : Bool :=
  numeral.significand = 0 || numeral.exponent < 0 ||
    (numeral.exponent ≤ greatestPower &&
      productFits numeral.significand (Nat.pow 10 numeral.exponent.toNat))

example : isFinite { significand := 17976931348623157, exponent := 292 } :=
  by decide +kernel
example : isFinite { significand := 17976931348623157000, exponent := 289 } = false :=
  by decide +kernel

end Numeral

end SwitchQos
