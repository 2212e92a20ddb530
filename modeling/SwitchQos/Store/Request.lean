import SwitchQos.Object.Basic
import SwitchQos.Schema.Error

namespace SwitchQos

/-! What is said to the object store and to the source of interface listings, and
how either can refuse. -/

/-! ## Operations -/

inductive Verb where
  | create
  | set
  | delete
  deriving DecidableEq, Repr

def Verb.name : Verb → String
  | .create => "create"
  | .set => "set"
  | .delete => "delete"

structure Operation where
  verb : Verb
  object : StoreObject
  deriving DecidableEq

/-! ## Refusals -/

inductive Rejection where
  | codec (cause : CodecError)
  | refused (verb : Verb) (classPath : String)
  | parentMissing (parentPath : String)
  | alreadyExists (classPath : String)
  | noSuch (classPath : String)
  /-- The store's own words. -/
  | reported (text : String)
  deriving DecidableEq, Repr

def Rejection.message : Rejection → String
  | .codec cause => cause.message
  | .refused verb classPath => verb.name ++ " " ++ classPath ++ " refused"
  | .parentMissing parentPath => parentPath ++ " does not exist"
  | .alreadyExists classPath => classPath ++ " already exists"
  | .noSuch classPath => "no such " ++ classPath
  | .reported text => text

inductive StoreError where
  /-- The batch was rejected as a whole. -/
  | rejected (reason : Rejection)
  /-- The store does not answer yet. -/
  | unavailable
  | queryFailed (reason : String)
  deriving DecidableEq, Repr

def StoreError.message : StoreError → String
  | .rejected reason => "transaction rejected: " ++ reason.message
  | .unavailable => "store unavailable"
  | .queryFailed reason => "query failed: " ++ reason

/-! ## Interfaces -/

inductive InterfaceClass where
  | frontPanel
  | cpu
  deriving DecidableEq, Repr

def InterfaceClass.typeName : InterfaceClass → String
  | .frontPanel => "ianaift:ethernetCsmacd"
  | .cpu => "base-if:cpu"

structure Port where
  name : String
  ifindex : Nat
  typeName : String
  deriving DecidableEq, Repr

def Port.isOf (port : Port) (interfaceClass : InterfaceClass) : Bool :=
  port.typeName = interfaceClass.typeName

/-! ## Replies -/

abbrev ObjectsReply := Except StoreError (List StoreObject)

abbrev PortsReply := Except StoreError (List Port)

end SwitchQos
