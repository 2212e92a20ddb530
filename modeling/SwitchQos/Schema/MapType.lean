import SwitchQos.Schema.Error

namespace SwitchQos

/-! A map table assigns one or more value fields to one or two key fields.
The map type fixes the fields and their order; the fields in front are the key. -/

inductive MapType where
  | dot1pToTc
  | dot1pToTcColor
  | dscpToTc
  | dscpToTcColor
  | tcToQueue
  | tcColorToDot1p
  | tcColorToDscp
  | tcToPriorityGroup
  | priorityGroupToPfcPriority
  | pfcPriorityToQueue
  deriving DecidableEq, Repr

namespace MapType

def all : List MapType :=
  [.dot1pToTc, .dot1pToTcColor, .dscpToTc, .dscpToTcColor, .tcToQueue, .tcColorToDot1p,
   .tcColorToDscp, .tcToPriorityGroup, .priorityGroupToPfcPriority, .pfcPriorityToQueue]

def name : MapType → String
  | .dot1pToTc => "dot1p-to-tc-map"
  | .dot1pToTcColor => "dot1p-to-tc-color-map"
  | .dscpToTc => "dscp-to-tc-map"
  | .dscpToTcColor => "dscp-to-tc-color-map"
  | .tcToQueue => "tc-to-queue-map"
  | .tcColorToDot1p => "tc-color-to-dot1p-map"
  | .tcColorToDscp => "tc-color-to-dscp-map"
  | .tcToPriorityGroup => "tc-to-priority-group-map"
  | .priorityGroupToPfcPriority => "priority-group-to-pfc-priority-map"
  | .pfcPriorityToQueue => "pfc-priority-to-queue-map"

def keyFields : MapType → List String
  | .dot1pToTc | .dot1pToTcColor => ["dot1p"]
  | .dscpToTc | .dscpToTcColor => ["dscp"]
  | .tcToQueue => ["tc", "type"]
  | .tcColorToDot1p | .tcColorToDscp => ["tc", "color"]
  | .tcToPriorityGroup => ["tc"]
  | .priorityGroupToPfcPriority => ["priority-group"]
  | .pfcPriorityToQueue => ["pfc-priority", "type"]

def valueFields : MapType → List String
  | .dot1pToTc | .dscpToTc => ["tc"]
  | .dot1pToTcColor | .dscpToTcColor => ["tc", "color"]
  | .tcToQueue | .pfcPriorityToQueue => ["queue-number"]
  | .tcColorToDot1p => ["dot1p"]
  | .tcColorToDscp => ["dscp"]
  | .tcToPriorityGroup => ["priority-group"]
  | .priorityGroupToPfcPriority => ["pfc-priority"]

def fields (mapType : MapType) : List String := mapType.keyFields ++ mapType.valueFields

/-- Legacy types carry a constant `switch-id` on tables and entries. -/
def isLegacy : MapType → Bool
  | .tcToPriorityGroup | .priorityGroupToPfcPriority | .pfcPriorityToQueue => false
  | _ => true

/-- Whether a run may create and bind tables of the type. Platforms do not
support remarking by traffic class and colour. -/
def isProvisionable : MapType → Bool
  | .tcColorToDot1p | .tcColorToDscp => false
  | _ => true

def ofName? (name : String) : Option MapType :=
  all.find? fun mapType => mapType.name = name

def ofName (name : String) : Except CodecError MapType :=
  match ofName? name with
  | some mapType => .ok mapType
  | none => .error (.unknownMapType name)

end MapType

end SwitchQos
