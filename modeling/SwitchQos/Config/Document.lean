import SwitchQos.Config.Shape
import SwitchQos.Config.Validation
import SwitchQos.Json.Reader
import SwitchQos.Text.Source

namespace SwitchQos

/-! Configurations as documents. A document is read, has to have the shape of a
configuration, and has to make sense. -/

inductive DocumentError where
  | unreadable (fault : ReadFault)
  | malformed (fault : ShapeFault)
  | invalid (fault : ConfigFault)
  deriving DecidableEq, Repr

def DocumentError.message : DocumentError → String
  | .unreadable fault => fault.message
  | .malformed fault => fault.message
  | .invalid fault => fault.message

namespace Config

/-- The configuration that the text has the shape of, whether it makes sense or
not. -/
def shapeOf (text : String) : Except ShapeFault Config := do
  let value ← ShapeFault.fitting (Json.ofText? text)
  Config.ofJson value

def ofText (text : String) : Except DocumentError Config := do
  let config ← (shapeOf text).mapError .malformed
  match config.fault? with
  | some fault => .error (.invalid fault)
  | none => .ok config

def ofSource (source : Source) : Except DocumentError Config := do
  let text ← source.text.mapError .unreadable
  ofText text

end Config

end SwitchQos
