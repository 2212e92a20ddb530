import SwitchQos.Schema.Error
import SwitchQos.Text.Affixes

namespace SwitchQos

/-! Symbols come in families, and within its family a symbol has a numeric code
counted from one. All families share one table, whose keys have the form
`base-qos:<family>:<SYMBOL>`. -/

inductive SymbolFamily where
  | meterType
  | meterMode
  | meterColorSource
  | policerAction
  | packetColor
  | queueType
  | packetDropType
  | schedulingType
  | flowControl
  | bufferPoolType
  | bufferThresholdMode
  deriving DecidableEq, Repr

namespace SymbolFamily

def all : List SymbolFamily :=
  [.meterType, .meterMode, .meterColorSource, .policerAction, .packetColor, .queueType,
   .packetDropType, .schedulingType, .flowControl, .bufferPoolType, .bufferThresholdMode]

def name : SymbolFamily → String
  | .meterType => "meter-type"
  | .meterMode => "meter-mode"
  | .meterColorSource => "meter-color-source"
  | .policerAction => "policer-action"
  | .packetColor => "packet-color"
  | .queueType => "queue-type"
  | .packetDropType => "packet-drop-type"
  | .schedulingType => "scheduling-type"
  | .flowControl => "flow-control"
  | .bufferPoolType => "buffer-pool-type"
  | .bufferThresholdMode => "buffer-threshold-mode"

def members : SymbolFamily → List String
  | .meterType => ["PACKET", "BYTE"]
  | .meterMode => ["Sr_TCM", "Tr_TCM", "Sr_TWO_COLOR", "STORM_CONTROL"]
  | .meterColorSource => ["BLIND", "AWARE"]
  | .policerAction => ["FORWARD", "DROP"]
  | .packetColor => ["GREEN", "YELLOW", "RED"]
  | .queueType => ["NONE", "UCAST", "MULTICAST"]
  | .packetDropType => ["TAIL", "WRED"]
  | .schedulingType => ["SP", "WRR", "WDRR"]
  | .flowControl => ["DISABLE", "TX-ONLY", "RX-ONLY", "BOTH-ENABLE"]
  | .bufferPoolType => ["INGRESS", "EGRESS"]
  | .bufferThresholdMode => ["STATIC", "DYNAMIC"]

def keyPrefix (family : SymbolFamily) : String := "base-qos:" ++ family.name ++ ":"

end SymbolFamily

namespace SymbolTable

def rows : List (String × Nat) :=
  SymbolFamily.all.flatMap fun family =>
    family.members.zipIdx.map fun member => (family.keyPrefix ++ member.1, member.2 + 1)

def code (key : String) : Except CodecError Nat :=
  match rows.find? fun row => row.1 = key with
  | some row => .ok row.2
  | none => .error (.unknownSymbol key)

def encode (front symbol : String) : Except CodecError Nat := code (front ++ symbol)

/-- A family is named in messages without the colons that end its key prefix. -/
def withoutColons (front : String) : String :=
  String.ofList (front.toList.reverse.dropWhile fun char => char = ':').reverse

/-- The symbol of `wanted` among the keys that start with `front`; the first in
table order where several families qualify. -/
def symbol (front : String) (wanted : Nat) : Except CodecError String :=
  match rows.findSome? fun row =>
    if row.2 = wanted then behind? front row.1 else none with
  | some found => .ok found
  | none => .error (.unknownCode (withoutColons front) wanted)

def family (front : String) : List (String × Nat) :=
  rows.filterMap fun row => (behind? front row.1).map fun symbol => (symbol, row.2)

end SymbolTable

namespace SymbolFamily

def encode (family : SymbolFamily) (symbol : String) : Except CodecError Nat :=
  SymbolTable.encode family.keyPrefix symbol

def symbol (family : SymbolFamily) (code : Nat) : Except CodecError String :=
  SymbolTable.symbol family.keyPrefix code

end SymbolFamily

end SwitchQos
