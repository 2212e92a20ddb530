namespace SwitchQos

/-! Documents come from files. A file may be missing, be a directory, or hold
bytes that are no text. -/

inductive Source where
  | missing
  | directory
  | file (content : ByteArray)

inductive ReadFault where
  | missing
  | directory
  | notText
  deriving DecidableEq, Repr

def ReadFault.message : ReadFault → String
  | .missing => "No such file or directory (os error 2)"
  | .directory => "Is a directory (os error 21)"
  | .notText => "stream did not contain valid UTF-8"

def Source.text : Source → Except ReadFault String
  | .missing => .error .missing
  | .directory => .error .directory
  | .file content =>
      match String.fromUTF8? content with
      | some text => .ok text
      | none => .error .notText

end SwitchQos
