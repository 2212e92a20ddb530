import SwitchQos.Schema.Error
import SwitchQos.Store.Exchange
import SwitchQos.Text.Number

namespace SwitchQos

/-! What can go wrong while a switch is provisioned. -/

inductive NameKind where
  | map
  | schedulerProfile
  deriving DecidableEq, Repr

def NameKind.text : NameKind → String
  | .map => "map"
  | .schedulerProfile => "scheduler profile"

inductive ProvisionError where
  | codec (cause : CodecError)
  | transactionFailed (object reason : String)
  | queryFailed (object reason : String)
  | lookupMiss (kind : NameKind) (name : String)
  | portUnavailable (name : String)
  /-- A level of a port has fewer scheduler groups than the tree addresses. -/
  | groupShortfall (port : String) (level ordinal discovered : Nat)
  | config (path problem : String)
  /-- A reply lacks something that the client relies on. -/
  | malformedResponse (object reason : String)
  deriving DecidableEq, Repr

namespace ProvisionError

def message : ProvisionError → String
  | .codec cause => cause.message
  | .transactionFailed object reason =>
      "Transaction failed for " ++ object ++ ": " ++ reason
  | .queryFailed object reason => "Query failed for " ++ object ++ ": " ++ reason
  | .lookupMiss kind name => "No " ++ kind.text ++ " named '" ++ name ++ "' was created"
  | .portUnavailable name => "Port " ++ name ++ " not available"
  | .groupShortfall port level ordinal discovered =>
      "Port " ++ port ++ ": no scheduler group at level " ++
        toString level ++ " ordinal " ++
        toString ordinal ++ " (" ++ toString discovered ++ " discovered)"
  | .config path problem => "Invalid configuration " ++ path ++ ": " ++ problem
  | .malformedResponse object reason =>
      "Malformed response for " ++ object ++ ": " ++ reason

/-- Whether the error comes back on every retry. -/
def isFatal : ProvisionError → Bool
  | .codec _ | .config _ _ | .portUnavailable _ => true
  | _ => false

end ProvisionError

/-! ## Tasks

A task is an exchange that may fail. It names the object it is about in the
errors it makes of refusals. -/

abbrev Task (Result : Type) := ExceptT ProvisionError Exchange Result

namespace Task

def ofCodec {Result : Type} (result : Except CodecError Result) : Task Result :=
  ExceptT.mk (.done (result.mapError .codec))

def query (object : String) (template : StoreObject) : Task (List StoreObject) :=
  ExceptT.mk do
    let reply ← Exchange.askObjects template
    return reply.mapError fun cause => .queryFailed object cause.message

def transact (object : String) (batch : List Operation) : Task (List StoreObject) :=
  ExceptT.mk do
    let reply ← Exchange.submit batch
    return reply.mapError fun cause => .transactionFailed object cause.message

def require {Result : Type} (value : Option Result)
    (error : ProvisionError) : Task Result :=
  ExceptT.mk (.done (match value with
    | some value => .ok value
    | none => .error error))

end Task

end SwitchQos
