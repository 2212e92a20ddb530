import SwitchQos.Object.Basic
import SwitchQos.Text.Bracketed
import SwitchQos.Text.Number

namespace SwitchQos

/-! Attribute values in their native form, before they are stored. A number may
come as a natural number or as an integer; reading a stored number always gives
the form that fits its storage type. -/

inductive AttrValue where
  | uint (number : Nat)
  | int (number : Int)
  | symbol (name : String)
  | list (items : List Nat)
  | objects (members : List StoreObject)
  deriving DecidableEq

namespace AttrValue

def asNat? : AttrValue → Option Nat
  | .uint number => some number
  | .int number => if 0 ≤ number then some number.toNat else none
  | _ => none

def asInt64? : AttrValue → Option Int
  | .uint number => if number < countOfBits 63 then some number else none
  | .int number => some number
  | _ => none

def asInt? : AttrValue → Option Int
  | .uint number => some number
  | .int number => some number
  | _ => none

def asSymbol? : AttrValue → Option String
  | .symbol name => some name
  | _ => none

def asList? : AttrValue → Option (List Nat)
  | .list items => some items
  | _ => none

def asObjects? : AttrValue → Option (List StoreObject)
  | .objects members => some members
  | _ => none

def text : AttrValue → String
  | .uint number => toString number
  | .int number => toString number
  | .symbol name => name
  | .list items => bracketed (items.map fun item => toString item)
  | .objects members => "<" ++ toString members.length ++ " objects>"

end AttrValue

end SwitchQos
