import SwitchQos.MapEntry.Objects
import SwitchQos.Provision.Error

namespace SwitchQos

/-! The client side of one map table. A table is created in a transaction of its
own, because its entries need the id the store assigns. Changes to entries are
staged and then committed together. -/

structure MapTable where
  mapType : MapType
  switchId : Nat
  id : Nat
  created : List StoreObject := []
  modified : List StoreObject := []
  deleted : List StoreObject := []
  deriving DecidableEq

namespace MapTable

def address (table : MapTable) : TableAddress :=
  ⟨table.mapType, table.switchId, some table.id⟩

def name (table : MapTable) : String := table.mapType.name ++ " " ++ hexText table.id

def create (mapType : MapType) (switchId : Nat) : Task MapTable := do
  let request ← Task.ofCodec (TableAddress.tableObject ⟨mapType, switchId, none⟩)
  let answers ← Task.transact (mapType.name ++ " table") [⟨.create, request⟩]
  let answer ← Task.require answers.head?
    (.malformedResponse mapType.name "empty create response")
  let record ← Task.ofCodec (Record.wrap answer)
  let id ← Task.require (← Task.ofCodec record.id)
    (.malformedResponse mapType.name "create response carries no id")
  return { mapType, switchId, id }

/-! ## Staging

Staging gives the number of entries an authored entry expanded to. When it fails
nothing is staged. -/

def add (table : MapTable) (entry : AuthoredEntry) (range : Option IntRange) :
    Except ProvisionError (Nat × MapTable) := do
  let objects ← (table.address.entryObjects entry range .full).mapError .codec
  .ok (objects.length, { table with created := table.created ++ objects })

def modify (table : MapTable) (entry : AuthoredEntry) (range : Option IntRange) :
    Except ProvisionError (Nat × MapTable) := do
  let objects ← (table.address.entryObjects entry range .full).mapError .codec
  .ok (objects.length, { table with modified := table.modified ++ objects })

def remove (table : MapTable) (entry : AuthoredEntry) (range : Option IntRange) :
    Except ProvisionError (Nat × MapTable) := do
  let objects ← (table.address.entryObjects entry range .keys).mapError .codec
  .ok (objects.length, { table with deleted := table.deleted ++ objects })

def staged (table : MapTable) : Nat :=
  table.created.length + table.modified.length + table.deleted.length

/-- What a commit submits: additions, then changes, then removals. -/
def batch (table : MapTable) : List Operation :=
  table.created.map (Operation.mk .create) ++ table.modified.map (Operation.mk .set) ++
    table.deleted.map (Operation.mk .delete)

def cleared (table : MapTable) : MapTable :=
  { table with created := [], modified := [], deleted := [] }

/-- Submit everything staged as one batch. A refusal leaves it staged. -/
def commit (table : MapTable) : Task MapTable := do
  if table.staged = 0 then
    return table
  let _ ← Task.transact table.name table.batch
  return table.cleared

/-! ## Reading and deleting -/

def template (table : MapTable) : Except ProvisionError StoreObject :=
  table.address.tableObject.mapError .codec

def fetch (table : MapTable) : Task StoreObject := do
  let template ← ExceptT.mk (.done table.template)
  let answers ← Task.query table.name template
  Task.require answers.head? (.queryFailed table.name "table not found")

def read (table : MapTable) : Task (List DecodedEntry) := do
  let answer ← table.fetch
  Task.ofCodec (table.address.decodeEntries answer)

/-- Delete every entry and then the table, in one batch. -/
def delete (table : MapTable) : Task Unit := do
  let answer ← table.fetch
  let value ← Task.ofCodec (table.address.tableClass.decode "entry" answer)
  let entries := (value.bind AttrValue.asObjects?).getD []
  let template ← ExceptT.mk (.done table.template)
  let _ ← Task.transact table.name
    (entries.map (Operation.mk .delete) ++ [⟨.delete, template⟩])

end MapTable

end SwitchQos
