import SwitchQos.Text.Number

namespace SwitchQos

/-! Doubles have 53 significant bits. Documents need only those that are natural
numbers, and of them only to tell whether a result is still in range. -/

/-- The nearest number with at most 53 significant bits; of two that are equally
near, the one whose last significant bit is zero. -/
def nearestDouble (number : Nat) : Nat :=
  let unit := countOfBits (number.log2 + 1 - 53)
  let units := number / unit
  let rest := number % unit
  if unit < 2 * rest ∨ (unit = 2 * rest ∧ units % 2 = 1) then (units + 1) * unit
  else units * unit

example : nearestDouble 9007199254740993 = 9007199254740992 := by decide
example : nearestDouble 9007199254740995 = 9007199254740996 := by decide
example : nearestDouble 18446744073709551615 = 18446744073709551616 := by decide

/-- The least result that rounds to a number of 1025 bits, and no double has so
many. -/
def doubleBound : Nat := countOfBits 1024 - countOfBits 970

def productFits (left right : Nat) : Bool :=
  nearestDouble left * nearestDouble right < doubleBound

end SwitchQos
