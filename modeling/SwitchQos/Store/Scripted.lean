import SwitchQos.Store.Memory

namespace SwitchQos

/-! A store in memory with prepared replies in front of it. Each call of a kind
uses up one prepared reply of that kind; a reply that is left open, or the end of
the list, passes the call on to the memory. -/

structure ScriptedStore where
  memory : Memory
  queryReplies : List (Option ObjectsReply) := []
  transactReplies : List (Option ObjectsReply) := []
  listReplies : List (Option PortsReply) := []

namespace ScriptedStore

def passOn {Reply : Type} (call : Memory → Reply × Memory) (store : ScriptedStore) :
    Reply × ScriptedStore :=
  let (reply, memory) := call store.memory
  (reply, { store with memory })

def query (template : StoreObject) (store : ScriptedStore) : ObjectsReply ×
    ScriptedStore :=
  match store.queryReplies with
  | some reply :: rest => (reply, { store with queryReplies := rest })
  | none :: rest => passOn (Memory.query template) { store with queryReplies := rest }
  | [] => passOn (Memory.query template) store

def transact (batch : List Operation) (store : ScriptedStore) : ObjectsReply ×
    ScriptedStore :=
  match store.transactReplies with
  | some reply :: rest => (reply, { store with transactReplies := rest })
  | none :: rest => passOn (Memory.transact batch) { store with transactReplies := rest }
  | [] => passOn (Memory.transact batch) store

def listPorts (interfaceClass : InterfaceClass) (store : ScriptedStore) :
    PortsReply × ScriptedStore :=
  match store.listReplies with
  | some reply :: rest => (reply, { store with listReplies := rest })
  | none :: rest =>
      passOn (Memory.listPorts interfaceClass) { store with listReplies := rest }
  | [] => passOn (Memory.listPorts interfaceClass) store

def responder : Responder ScriptedStore := ⟨query, transact, listPorts⟩

end ScriptedStore

end SwitchQos
