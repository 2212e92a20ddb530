import SwitchQos.Store.Contents
import SwitchQos.Store.Exchange

namespace SwitchQos

/-! A store kept in memory. It applies each batch as a whole or not at all,
refuses what its failure rules name, and lists interfaces from a script. -/

/-! ## Listings -/

structure ListingScript where
  pending : List (List Port) := []
  calls : Nat := 0
  deriving DecidableEq, Repr

/-- Give the next listing. The last one stays and is given again. -/
def ListingScript.next (script : ListingScript) : List Port × ListingScript :=
  match script.pending with
  | [] => ([], { script with calls := script.calls + 1 })
  | [last] => (last, { script with calls := script.calls + 1 })
  | first :: rest => (first, ⟨rest, script.calls + 1⟩)

/-! ## State -/

structure Memory where
  switchId : Nat
  contents : Contents
  rules : List FailureRule := []
  /-- Operations of all accepted batches, in order. -/
  log : List Operation := []
  /-- How many of the next queries find the store unavailable. -/
  unavailable : Nat := 0
  frontPanel : ListingScript := {}
  cpu : ListingScript := {}
  deriving DecidableEq

namespace Memory

def firstId : Nat := 0x1000

def new (switchId : Nat) : Memory := { switchId, contents := { nextId := firstId } }

def script (memory : Memory) : InterfaceClass → ListingScript
  | .frontPanel => memory.frontPanel
  | .cpu => memory.cpu

def withScript (memory : Memory) (interfaceClass : InterfaceClass)
    (script : ListingScript) :
    Memory :=
  match interfaceClass with
  | .frontPanel => { memory with frontPanel := script }
  | .cpu => { memory with cpu := script }

/-! ## Answering -/

/-- The stored object as a query finds it: a table comes with its entries. -/
def found (contents : Contents) (objectClass : ObjectClass) (stored : StoreObject) :
    StoreObject :=
  match objectClass with
  | .mapTable mapType =>
      stored.insert (objectClass.path ++ "/entry")
        (.entries (contents.entriesOf mapType stored))
  | _ => stored

def query (template : StoreObject) (memory : Memory) : ObjectsReply × Memory :=
  if memory.unavailable > 0 then
    (.error .unavailable, { memory with unavailable := memory.unavailable - 1 })
  else
    match ObjectClass.ofPath template.classPath with
    | .error cause => (.error (.queryFailed cause.message), memory)
    | .ok objectClass =>
        let matching := (memory.contents.ofClass objectClass).filter fun stored =>
          stored.agreesWith template
        (.ok (matching.map fun stored =>
          (found memory.contents objectClass stored).answer objectClass), memory)

def transact (batch : List Operation) (memory : Memory) : ObjectsReply × Memory :=
  match memory.contents.performAll memory.rules batch with
  | .error reason => (.error (.rejected reason), memory)
  | .ok (answers, contents) =>
      (.ok answers, { memory with contents, log := memory.log ++ batch })

def listPorts (interfaceClass : InterfaceClass) (memory : Memory) : PortsReply × Memory :=
  let (listing, script) := (memory.script interfaceClass).next
  (.ok listing, memory.withScript interfaceClass script)

def responder : Responder Memory := ⟨query, transact, listPorts⟩

/-! ## Preparing and inspecting -/

def scriptPorts (memory : Memory) (interfaceClass : InterfaceClass)
    (listings : List (List Port)) : Memory :=
  memory.withScript interfaceClass
    { memory.script interfaceClass with pending := listings }

def setPorts (memory : Memory) (interfaceClass : InterfaceClass)
    (ports : List Port) : Memory :=
  memory.scriptPorts interfaceClass [ports]

def refuse (memory : Memory) (rule : FailureRule) : Memory :=
  { memory with rules := memory.rules ++ [rule] }

def refuseAll (memory : Memory) (verb : Verb) (objectClass : ObjectClass) : Memory :=
  memory.refuse { verb, classPath := objectClass.path }

def refuseMatching (memory : Memory) (verb : Verb)
    (objectClass : ObjectClass) (attr : String) (value : AttrValue) :
    Except CodecError Memory := do
  let path ← objectClass.attrPath attr
  let encoded ← objectClass.encode attr value
  .ok (memory.refuse
    { verb, classPath := objectClass.path, condition := some (path, encoded) })

def find? (memory : Memory) (objectClass : ObjectClass)
    (attrs : List (String × AttrValue)) :
    Option StoreObject :=
  match objectClass.build attrs with
  | .error _ => none
  | .ok template =>
      (memory.contents.ofClass objectClass).find? fun stored => stored.agreesWith template

end Memory

end SwitchQos
