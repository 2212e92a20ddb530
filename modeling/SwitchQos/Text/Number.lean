namespace SwitchQos

/-! Integers are written in decimal. Reading accepts leading zeros and a single
sign in front; ids inside messages are written in hexadecimal. -/

/-! ## Reading -/

def readDigits (chars : List Char) : Option Nat :=
  if chars ≠ [] ∧ chars.all Char.isDigit then some (Nat.ofDigitChars 10 chars 0) else none

/-- Digits after an optional plus sign. -/
def readNatural : List Char → Option Nat
  | '+' :: digits => readDigits digits
  | digits => readDigits digits

def readInteger : List Char → Option Int
  | '-' :: digits => (readDigits digits).map fun number => -(number : Int)
  | chars => (readNatural chars).map fun number => (number : Int)

example : readInteger ['-', '0', '7'] = some (-7) := by decide
example : readNatural ['+', '7'] = some 7 := by decide
example : readNatural ['-', '7'] = none := by decide
example : readInteger ['+', '-', '7'] = none := by decide

/-! ## Widths -/

def countOfBits (bits : Nat) : Nat := Nat.pow 2 bits

example : countOfBits 32 = 4294967296 := by decide

/-! ## Writing -/

def hexText (number : Nat) : String := "0x" ++ String.ofList (Nat.toDigits 16 number)

end SwitchQos
