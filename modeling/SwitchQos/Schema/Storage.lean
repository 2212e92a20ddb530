import SwitchQos.Text.Number

namespace SwitchQos

/-! Numbers reach the store as fixed-width bytes, least significant byte first;
a signed number is written in two's complement. -/

/-! ## Bytes -/

def littleEndian : (width : Nat) → Nat → List UInt8
  | 0, _ => []
  | width + 1, number => UInt8.ofNat (number % 256) :: littleEndian width (number / 256)

def ofLittleEndian : List UInt8 → Nat
  | [] => 0
  | byte :: rest => byte.toNat + 256 * ofLittleEndian rest

@[simp] theorem length_littleEndian (width number : Nat) :
    (littleEndian width number).length = width := by
  induction width generalizing number with
  | zero => rfl
  | succ width induction => simp [littleEndian, induction]

/-! ## Storage types -/

inductive Storage where
  | uint8
  | int8
  | uint16
  | uint32
  | uint64
  deriving DecidableEq, Repr

namespace Storage

def name : Storage → String
  | .uint8 => "uint8_t"
  | .int8 => "int8_t"
  | .uint16 => "uint16_t"
  | .uint32 => "uint32_t"
  | .uint64 => "uint64_t"

def width : Storage → Nat
  | .uint8 | .int8 => 1
  | .uint16 => 2
  | .uint32 => 4
  | .uint64 => 8

def isSigned : Storage → Bool
  | .int8 => true
  | _ => false

def modulus (storage : Storage) : Nat := countOfBits (8 * storage.width)

def least (storage : Storage) : Int :=
  if storage.isSigned then -(storage.modulus / 2 : Nat) else 0

def greatest (storage : Storage) : Int :=
  if storage.isSigned then (storage.modulus / 2 : Nat) - 1
    else (storage.modulus : Nat) - 1

example : Storage.int8.least = -128 ∧ Storage.int8.greatest = 127 := by decide
example : Storage.uint32.least = 0 ∧ Storage.uint32.greatest = 4294967295 := by decide

def Holds (storage : Storage) (number : Int) : Prop :=
  storage.least ≤ number ∧ number ≤ storage.greatest

instance (storage : Storage) (number : Int) : Decidable (storage.Holds number) :=
  inferInstanceAs (Decidable (_ ∧ _))

/-- The bytes of a number; only a number the storage type holds reads back. -/
def write (storage : Storage) (number : Int) : List UInt8 :=
  littleEndian storage.width (number % storage.modulus).toNat

def read? (storage : Storage) (bytes : List UInt8) : Option Int :=
  if bytes.length = storage.width then
    let unsigned := ofLittleEndian bytes
    if storage.isSigned ∧ storage.modulus ≤ 2 * unsigned then
      some ((unsigned : Int) - storage.modulus)
    else
      some unsigned
  else
    none

example : Storage.int8.write (-2) = [254] := by decide
example : Storage.int8.read? [254] = some (-2) := by decide
example : Storage.uint16.write 258 = [2, 1] := by decide
example : Storage.uint16.read? [2] = none := by decide

end Storage

end SwitchQos
