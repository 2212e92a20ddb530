import SwitchQos.Json.Basic

namespace SwitchQos

/-! A record has declared fields. An object gives them by name, each at most once,
and may have other members beside them. An array gives them in declared order and
may stop early. -/

abbrev FieldValues := List (String × Json)

namespace Json

def namedMembers? (members : List (JsonText × Json)) : Option (List (String × Json)) :=
  members.mapM fun member => member.1.map fun name => (name, member.2)

def fields? (declared : List String) : Json → Option FieldValues
  | .array items =>
      if items.length ≤ declared.length then some (declared.zip items) else none
  | .object members => do
      let named ← namedMembers? members
      let given := named.filter fun member => member.1 ∈ declared
      if (given.map (·.1)).Nodup then some given else none
  | _ => none

end Json

namespace FieldValues

def required? {Value : Type} (fields : FieldValues) (name : String)
    (read : Json → Option Value) : Option Value :=
  (fields.lookup name).bind read

def optional? {Value : Type} (fields : FieldValues) (name : String) (default : Value)
    (read : Json → Option Value) : Option Value :=
  match fields.lookup name with
  | some value => read value
  | none => some default

end FieldValues

end SwitchQos
