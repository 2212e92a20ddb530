import SwitchQos.Codec.Basic

namespace SwitchQos

/-! A record is an object together with its class. Either it is authored, built
attribute by attribute through the codec, or it is a view on a reply of the
store, and then it can only be read. -/

structure Authored where
  objectClass : ObjectClass
  data : StoreObject
  deriving DecidableEq

namespace Authored

def new (objectClass : ObjectClass) : Authored := ⟨objectClass, .new objectClass.path⟩

def get (authored : Authored) (attr : String) : Except CodecError (Option AttrValue) :=
  authored.objectClass.decode attr authored.data

def set (authored : Authored) (attr : String) (value : AttrValue) :
    Except CodecError Authored := do
  let data ← authored.objectClass.set authored.data attr value
  .ok { authored with data }

def setText (authored : Authored) (attr text : String) : Except CodecError Authored := do
  let encoded ← authored.objectClass.encodeText attr text
  let path ← authored.objectClass.attrPath attr
  .ok { authored with data := authored.data.insert path encoded }

def pushItem (authored : Authored) (attr : String) (item : Nat) :
    Except CodecError Authored := do
  match ← authored.get attr with
  | some (.list items) => authored.set attr (.list (items ++ [item]))
  | some _ => .error (.typeMismatch attr "integer list")
  | none => authored.set attr (.list [item])

def setTexts (authored : Authored) (texts : List (String × String)) :
    Except CodecError Authored :=
  texts.foldlM (fun written text => written.setText text.1 text.2) authored

end Authored

inductive Record where
  | authored (object : Authored)
  | view (objectClass : ObjectClass) (data : StoreObject)
  deriving DecidableEq

namespace Record

def author (objectClass : ObjectClass) : Record := .authored (.new objectClass)

/-- View a reply of the store as an object of the class its path names. -/
def wrap (data : StoreObject) : Except CodecError Record := do
  let objectClass ← ObjectClass.ofPath data.classPath
  .ok (.view objectClass data)

def objectClass : Record → ObjectClass
  | .authored object => object.objectClass
  | .view objectClass _ => objectClass

def data : Record → StoreObject
  | .authored object => object.data
  | .view _ data => data

def isView : Record → Bool
  | .authored _ => false
  | .view _ _ => true

def attr (record : Record) (attr : String) : Except CodecError (Option AttrValue) :=
  record.objectClass.decode attr record.data

def id (record : Record) : Except CodecError (Option Nat) :=
  record.objectClass.decodeNat "id" record.data

def toAuthored : Record → Authored
  | .authored object => object
  | .view objectClass data =>
      ⟨objectClass, (StoreObject.new objectClass.path).mergeFrom data⟩

def toView (record : Record) : Record := .view record.objectClass record.data

end Record

end SwitchQos
