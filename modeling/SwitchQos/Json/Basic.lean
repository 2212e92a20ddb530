import SwitchQos.Json.Numeral

namespace SwitchQos

/-! Documents are JSON. A value is kept close to how it is written: numbers as
numerals, members in order and with repetitions. -/

/-- A text of a document, or `none` for one that has no characters to stand for:
one of its escapes is half of a surrogate pair whose other half is missing. -/
abbrev JsonText := Option String

inductive Json where
  | null
  | bool (value : Bool)
  | number (numeral : Numeral)
  | text (content : JsonText)
  | array (items : List Json)
  | object (members : List (JsonText × Json))
  deriving Repr

namespace Json

/-! ## Plain values -/

mutual
/-- Whether every text in the value stands for characters, every number lies in
the range of doubles, and no more than `levels` containers are nested. -/
def isPlain (levels : Nat) : Json → Bool
  | .null | .bool _ => true
  | .number numeral => numeral.isFinite
  | .text content => content.isSome
  | .array items =>
      match levels with
      | 0 => false
      | levels + 1 => arePlain levels items
  | .object members =>
      match levels with
      | 0 => false
      | levels + 1 => areMembersPlain levels members

def arePlain (levels : Nat) : List Json → Bool
  | [] => true
  | item :: rest => item.isPlain levels && arePlain levels rest

def areMembersPlain (levels : Nat) : List (JsonText × Json) → Bool
  | [] => true
  | (key, value) :: rest => key.isSome && value.isPlain levels &&
      areMembersPlain levels rest
end

/-! ## Simple values -/

def bool? : Json → Option Bool
  | .bool value => some value
  | _ => none

def text? : Json → Option String
  | .text content => content
  | _ => none

def int? : Json → Option Int
  | .number numeral => numeral.int?
  | _ => none

def int64? (value : Json) : Option Int := do
  let number ← value.int?
  if number < countOfBits 63 then some number else none

def nat? (bits : Nat) (value : Json) : Option Nat := do
  let number ← value.int?
  if 0 ≤ number ∧ number < countOfBits bits then some number.toNat else none

def items? {Item : Type} (read : Json → Option Item) : Json → Option (List Item)
  | .array items => items.mapM read
  | _ => none

def optional? {Value : Type} (read : Json → Option Value) : Json → Option (Option Value)
  | .null => some none
  | value => (read value).map some

end Json

end SwitchQos
