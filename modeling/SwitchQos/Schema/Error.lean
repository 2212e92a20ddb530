import SwitchQos.Text.Bracketed

namespace SwitchQos

/-! What can go wrong between a native value and its stored form. The schema and
the symbol table are fixed, so repeating a failed call fails again. -/

inductive CodecError where
  | unknownAttribute (classPath attr : String)
  | unknownSymbol (key : String)
  | unknownCode (family : String) (code : Nat)
  | unknownClass (path : String)
  | typeMismatch (attr expected : String)
  | outOfRange (attr : String) (value : Int) (storage : String)
  | invalidText (attr text : String)
  | malformedValue (path reason : String)
  | tableNotCreated (map : String)
  | manyWildcards (map : String) (fields : List String)
  | wildcardWithoutRange (map field : String)
  | tooManyFields (map : String) (given greatest : Nat)
  | missingField (map field : String)
  | unknownMapType (name : String)
  | unknownField (map field : String)
  deriving DecidableEq, Repr

namespace CodecError

def message : CodecError → String
  | .unknownAttribute classPath attr =>
      "Unknown attribute '" ++ attr ++ "' for object class " ++ classPath
  | .unknownSymbol key => "Unknown enum symbol '" ++ key ++ "'"
  | .unknownCode family code =>
      "No symbol for code " ++ toString code ++ " in enum family '" ++ family ++ "'"
  | .unknownClass path => "Unknown object class '" ++ path ++ "'"
  | .typeMismatch attr expected =>
      "Type mismatch for '" ++ attr ++ "': expected " ++ expected
  | .outOfRange attr value storage =>
      "Value " ++ toString value ++ " out of range for '" ++ attr ++
        "' (" ++ storage ++ ")"
  | .invalidText attr text => "Invalid value '" ++ text ++ "' for '" ++ attr ++ "'"
  | .malformedValue path reason => "Malformed store value at '" ++ path ++ "': " ++ reason
  | .tableNotCreated map =>
      "Map entry of " ++ map ++ " needs the map table to be created first"
  | .manyWildcards map fields =>
      "Map entry of " ++ map ++ " has more than one wildcard field: " ++
        bracketed (fields.map quoted)
  | .wildcardWithoutRange map field =>
      "Map " ++ map ++ " uses a wildcard in field '" ++ field ++
        "' but declares no min/max range"
  | .tooManyFields map given greatest =>
      "Map entry of " ++ map ++ " has " ++ toString given ++ " values, at most " ++
        toString greatest ++ " allowed"
  | .missingField map field =>
      "Map entry of " ++ map ++ " is missing field '" ++ field ++ "'"
  | .unknownMapType name => "Unknown map type '" ++ name ++ "'"
  | .unknownField map field => "Field '" ++ field ++ "' is not part of " ++ map

end CodecError

end SwitchQos
