import SwitchQos.MapEntry.Expansion
import SwitchQos.Object.Record

namespace SwitchQos

/-! The objects of one map table: the table itself, which has an id once the
store has created it, and its entries, each of which carries that id. -/

structure TableAddress where
  mapType : MapType
  switchId : Nat
  id : Option Nat := none
  deriving DecidableEq, Repr

structure DecodedEntry where
  tableId : Option Nat
  fields : List (String × AttrValue)
  deriving DecidableEq

namespace TableAddress

def tableClass (address : TableAddress) : ObjectClass := .mapTable address.mapType

def entryClass (address : TableAddress) : ObjectClass := .mapEntry address.mapType

def start (address : TableAddress) (objectClass : ObjectClass) :
    Except CodecError Authored :=
  if address.mapType.isLegacy then
    (Authored.new objectClass).set "switch-id" (.uint address.switchId)
  else .ok (.new objectClass)

def tableObject (address : TableAddress) : Except CodecError StoreObject := do
  let table ← address.start address.tableClass
  match address.id with
  | some id => (table.set "id" (.uint id)).map (·.data)
  | none => .ok table.data

def entryObject (address : TableAddress) (fields : EntryFields) :
    Except CodecError StoreObject :=
  match address.id with
  | none => .error (.tableNotCreated address.mapType.name)
  | some id => do
      let entry ← address.start address.entryClass
      let entry ← entry.set "id" (.uint id)
      (entry.setTexts fields).map (·.data)

def entryObjects (address : TableAddress) (entry : AuthoredEntry)
    (range : Option IntRange) (arity : EntryArity) :
    Except CodecError (List StoreObject) := do
  let entries ← entry.expand address.mapType range arity
  entries.mapM address.entryObject

def decodeFields (address : TableAddress) (entry : StoreObject) :
    List String → Except CodecError (List (String × AttrValue))
  | [] => .ok []
  | field :: rest => do
      let value ← address.entryClass.decode field entry
      let decoded ← decodeFields address entry rest
      match value with
      | some value => .ok ((field, value) :: decoded)
      | none => .ok decoded

def decodeEntry (address : TableAddress) (entry : StoreObject) :
    Except CodecError DecodedEntry := do
  let tableId ← address.entryClass.decodeNat "id" entry
  let fields ← address.decodeFields entry address.mapType.fields
  .ok ⟨tableId, fields⟩

def decodeEntries (address : TableAddress) (table : StoreObject) :
    Except CodecError (List DecodedEntry) := do
  match ← address.tableClass.decode "entry" table with
  | some (.objects entries) => entries.mapM address.decodeEntry
  | some _ => .error (.typeMismatch "entry" "object collection")
  | none => .ok []

end TableAddress

end SwitchQos
