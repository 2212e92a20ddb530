import SwitchQos.Schema.MapType
import SwitchQos.Text.Affixes

namespace SwitchQos

/-! Objects of the store belong to classes. A class is addressed by its path, a
map entry lives below its table, and the key attributes of a class tell its
instances apart. -/

inductive ObjectClass where
  | schedulerGroup
  | schedulerProfile
  | queue
  | portIngress
  | portEgress
  | mapTable (mapType : MapType)
  | mapEntry (mapType : MapType)
  deriving DecidableEq, Repr

namespace ObjectClass

def plain : List ObjectClass :=
  [.schedulerGroup, .schedulerProfile, .queue, .portIngress, .portEgress]

def all : List ObjectClass :=
  plain ++ MapType.all.flatMap fun mapType => [.mapTable mapType, .mapEntry mapType]

def name : ObjectClass → String
  | .schedulerGroup => "scheduler-group"
  | .schedulerProfile => "scheduler-profile"
  | .queue => "queue"
  | .portIngress => "port-ingress"
  | .portEgress => "port-egress"
  | .mapTable mapType => mapType.name
  | .mapEntry mapType => mapType.name ++ "/entry"

def path (objectClass : ObjectClass) : String := "base-qos/" ++ objectClass.name

/-- The class of a name: a plain class, else the entries of a map type if the name
ends as theirs do, else a table. -/
def ofName? (name : String) : Option ObjectClass :=
  match plain.find? fun objectClass => objectClass.name = name with
  | some objectClass => some objectClass
  | none =>
      match ahead? "/entry" name with
      | some table => (MapType.ofName? table).map .mapEntry
      | none => (MapType.ofName? name).map .mapTable

def ofPath? (path : String) : Option ObjectClass :=
  (behind? "base-qos/" path).bind ofName?

def ofPath (path : String) : Except CodecError ObjectClass :=
  match ofPath? path with
  | some objectClass => .ok objectClass
  | none => .error (.unknownClass path)

def parent? : ObjectClass → Option ObjectClass
  | .mapEntry mapType => some (.mapTable mapType)
  | _ => none

def keyAttrs : ObjectClass → List String
  | .schedulerGroup | .schedulerProfile | .mapTable _ => ["id"]
  | .queue => ["port-id", "type", "queue-number"]
  | .portIngress | .portEgress => ["port-id"]
  | .mapEntry mapType => "id" :: mapType.keyFields

theorem mem_all (objectClass : ObjectClass) : objectClass ∈ all := by
  cases objectClass with
  | mapTable mapType | mapEntry mapType => cases mapType <;> decide
  | _ => decide

end ObjectClass

end SwitchQos
