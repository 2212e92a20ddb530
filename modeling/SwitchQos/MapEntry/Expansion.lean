import SwitchQos.Directory
import SwitchQos.Schema.MapType

namespace SwitchQos

/-! A map entry is authored as texts for the fields of its map type, by position
or by name. One field may hold the wildcard; the entry then stands for one entry
per integer of a range. -/

structure IntRange where
  least : Int
  greatest : Int
  deriving DecidableEq, Repr

namespace IntRange

/-- Empty where the bounds are crossed. -/
def values (range : IntRange) : List Int :=
  (List.range (range.greatest - range.least + 1).toNat).map fun (offset : Nat) =>
    range.least + offset

example : (IntRange.mk (-1) 2).values = [-1, 0, 1, 2] := by decide
example : (IntRange.mk 1 0).values = [] := by decide

end IntRange

inductive AuthoredEntry where
  /-- Texts for the fields in declared order, from the first field on. -/
  | positional (texts : List String)
  | named (texts : Directory String String)
  deriving DecidableEq, Repr

inductive EntryArity where
  /-- Every field; entries are created and modified with all of them. -/
  | full
  /-- The key fields; more may be given. -/
  | keys
  deriving DecidableEq, Repr

def EntryArity.required (arity : EntryArity) (mapType : MapType) : List String :=
  match arity with
  | .full => mapType.fields
  | .keys => mapType.keyFields

abbrev EntryFields := List (String × String)

/-- The text that stands for every integer of the range. -/
def wildcard : String := "all"

namespace AuthoredEntry

def resolve (entry : AuthoredEntry) (mapType : MapType) : Except CodecError EntryFields :=
  match entry with
  | .positional texts =>
      if texts.length > mapType.fields.length then
        .error (.tooManyFields mapType.name texts.length mapType.fields.length)
      else .ok (mapType.fields.zip texts)
  | .named texts =>
      match texts.keys.find? fun field => field ∉ mapType.fields with
      | some field => .error (.unknownField mapType.name field)
      | none =>
          .ok (mapType.fields.filterMap fun field =>
            (texts.get? field).map fun text => (field, text))

end AuthoredEntry

namespace EntryFields

def missing? (fields : EntryFields) (required : List String) : Option String :=
  required.find? fun field => field ∉ fields.map (·.1)

def wildcards (fields : EntryFields) : List String :=
  (fields.filter fun field => field.2 = wildcard).map (·.1)

def fill (fields : EntryFields) (text : String) : EntryFields :=
  fields.map fun field => (field.1, if field.2 = wildcard then text else field.2)

end EntryFields

def AuthoredEntry.expand (entry : AuthoredEntry) (mapType : MapType)
    (range : Option IntRange) (arity : EntryArity) :
    Except CodecError (List EntryFields) := do
  let fields ← entry.resolve mapType
  match fields.missing? (arity.required mapType) with
  | some field => .error (.missingField mapType.name field)
  | none =>
      match fields.wildcards, range with
      | [], _ => .ok [fields]
      | [_], some range =>
          .ok (range.values.map fun value => fields.fill (toString value))
      | [field], none => .error (.wildcardWithoutRange mapType.name field)
      | many, _ => .error (.manyWildcards mapType.name many)

end SwitchQos
