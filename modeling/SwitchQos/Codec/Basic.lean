import SwitchQos.Object.Value
import SwitchQos.Schema.Attribute
import SwitchQos.Text.Blank
import SwitchQos.Text.Number

namespace SwitchQos

/-! The codec turns native attribute values into stored ones and back. The
schema decides everything: which shape an attribute has, how wide its numbers
are and where it is kept. -/

namespace Storage

/-- The native form in which a stored number is read: `int` for signed storage. -/
def native (storage : Storage) (number : Int) : AttrValue :=
  if storage.isSigned then .int number else .uint number.toNat

def encode (storage : Storage) (attr : String) (number : Int) :
    Except CodecError (List UInt8) :=
  if storage.Holds number then .ok (storage.write number)
  else .error (.outOfRange attr number storage.name)

def decode (storage : Storage) (path : String) (bytes : List UInt8) :
    Except CodecError Int :=
  match storage.read? bytes with
  | some number => .ok number
  | none =>
      .error (.malformedValue path
        ("expected " ++ toString storage.width ++ " bytes for " ++ storage.name ++
          ", got " ++ toString bytes.length))

/-- Text is refused beyond 128 bits before the storage type is looked at. -/
def parse (storage : Storage) (attr text : String) : Except CodecError AttrValue :=
  match readInteger text.toList with
  | some number =>
      if number < -countOfBits 127 ∨
        countOfBits 127 ≤ number then .error (.invalidText attr text)
      else if storage.Holds number then .ok (storage.native number)
      else .error (.outOfRange attr number storage.name)
  | none => .error (.invalidText attr text)

end Storage

/-- Items of a list are natural numbers of at most 64 bits, separated by commas. -/
def parseItems (attr text : String) : Except CodecError (List Nat) :=
  if text = "" then .ok []
  else (text.toList.splitOn ',').mapM fun item =>
    match readNatural (trimChars item) with
    | some number =>
        if number < countOfBits 64 then .ok number else .error (.invalidText attr text)
    | none => .error (.invalidText attr text)

namespace AttrSpec

def encode (spec : AttrSpec) (attr : String) (value : AttrValue) :
    Except CodecError StoreValue :=
  match spec.kind with
  | .scalar =>
      match value.asInt? with
      | some number => (spec.storage.encode attr number).map .bytes
      | none => .error (.typeMismatch attr "integer")
  | .symbol family =>
      match value.asSymbol? with
      | some name => do
          let code ← family.encode name
          (spec.storage.encode attr code).map .bytes
      | none => .error (.typeMismatch attr "enum symbol")
  | .list =>
      match value.asList? with
      | some items =>
          (items.mapM fun item : Nat => spec.storage.encode attr item).map .list
      | none => .error (.typeMismatch attr "integer list")
  | .entries =>
      match value.asObjects? with
      | some members => .ok (.entries members)
      | none => .error (.typeMismatch attr "object collection")

/-- Read configuration text; `text` has no white space around it. A symbol is not
looked up before it is encoded. -/
def parse (spec : AttrSpec) (attr text : String) : Except CodecError AttrValue :=
  match spec.kind with
  | .scalar => spec.storage.parse attr text
  | .symbol _ =>
      if text = "" then .error (.invalidText attr text) else .ok (.symbol text)
  | .list => (parseItems attr text).map .list
  | .entries => .error (.typeMismatch attr "object collection")

def decode (spec : AttrSpec) (path : String) (value : StoreValue) :
    Except CodecError AttrValue :=
  match spec.kind, value with
  | .scalar, .bytes content => (spec.storage.decode path content).map spec.storage.native
  | .symbol family, .bytes content => do
      let code ← spec.storage.decode path content
      (family.symbol code.toNat).map .symbol
  | .list, .list items =>
      (items.mapM fun item => (spec.storage.decode path item).map Int.toNat).map .list
  | .entries, .entries members => .ok (.objects members)
  | kind, _ =>
      .error (.malformedValue path ("value shape does not match " ++ kind.description))

end AttrSpec

namespace ObjectClass

def encode (objectClass : ObjectClass) (attr : String) (value : AttrValue) :
    Except CodecError StoreValue := do
  let spec ← objectClass.spec attr
  spec.encode attr value

def parseText (objectClass : ObjectClass) (attr text : String) :
    Except CodecError AttrValue := do
  let spec ← objectClass.spec attr
  spec.parse attr (trim text)

def encodeText (objectClass : ObjectClass) (attr text : String) :
    Except CodecError StoreValue := do
  let value ← objectClass.parseText attr text
  objectClass.encode attr value

def decodeValue (objectClass : ObjectClass) (attr : String) (value : StoreValue) :
    Except CodecError AttrValue := do
  let spec ← objectClass.spec attr
  let path ← objectClass.attrPath attr
  spec.decode path value

def decode (objectClass : ObjectClass) (attr : String) (object : StoreObject) :
    Except CodecError (Option AttrValue) := do
  let path ← objectClass.attrPath attr
  match object.lookup path with
  | some value => (objectClass.decodeValue attr value).map some
  | none => .ok none

def decodeNat (objectClass : ObjectClass) (attr : String) (object : StoreObject) :
    Except CodecError (Option Nat) := do
  match ← objectClass.decode attr object with
  | some value =>
      match value.asNat? with
      | some number => .ok (some number)
      | none => .error (.typeMismatch attr "unsigned integer")
  | none => .ok none

def set (objectClass : ObjectClass) (object : StoreObject) (attr : String)
    (value : AttrValue) : Except CodecError StoreObject := do
  let encoded ← objectClass.encode attr value
  let path ← objectClass.attrPath attr
  .ok (object.insert path encoded)

def build (objectClass : ObjectClass) (attrs : List (String × AttrValue)) :
    Except CodecError StoreObject :=
  attrs.foldlM (fun object attr => objectClass.set object attr.1 attr.2)
    (.new objectClass.path)

end ObjectClass

end SwitchQos
