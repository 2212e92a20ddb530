import SwitchQos.Codec.Basic
import SwitchQos.Store.Request

namespace SwitchQos

/-! The stored objects in the order of their creation, and the next id to be
assigned. Two objects of a class are the same entity when they agree on all key
attributes of the class; an operation acts on the first entity it addresses. -/

namespace ObjectClass

def identity? (objectClass : ObjectClass) (object : StoreObject) :
    Option (List StoreValue) :=
  objectClass.keyPaths.mapM fun path => object.lookup path

def sameEntity (objectClass : ObjectClass) (left right : StoreObject) : Bool :=
  match objectClass.identity? left, objectClass.identity? right with
  | some left, some right => left = right
  | _, _ => false

def allocatesId : ObjectClass → Bool
  | .schedulerGroup | .schedulerProfile | .mapTable _ => true
  | _ => false

end ObjectClass

namespace StoreObject

/-- Agreement with a template on everything it binds, nested objects aside. Only
the object's own attributes count, also for what the template gives as key data. -/
def agreesWith (object : StoreObject) : StoreObject → Bool
  | ⟨_, attrs, none⟩ => attrs.rows.all agrees
  | ⟨_, attrs, some keyData⟩ => attrs.rows.all agrees && object.agreesWith keyData
where
  agrees : String × StoreValue → Bool
    | (_, .entries _) => true
    | (path, value) => object.get? path = some value

/-- The form in which the store answers: key attributes move to the key data. -/
def answer (objectClass : ObjectClass) (object : StoreObject) : StoreObject :=
  let isKey (row : String × StoreValue) : Bool := row.1 ∈ objectClass.keyPaths
  let keyRows := object.attrs.rows.filter isKey
  { classPath := object.classPath
    attrs := ⟨object.attrs.rows.filter fun row => !isKey row⟩
    keyData :=
    if keyRows.isEmpty then none else some ⟨object.classPath, ⟨keyRows⟩, none⟩ }

end StoreObject

/-! ## Failure rules -/

structure FailureRule where
  verb : Verb
  classPath : String
  condition : Option (String × StoreValue) := none
  deriving DecidableEq

def FailureRule.applies (rule : FailureRule) (operation : Operation) : Bool :=
  rule.verb = operation.verb && operation.object.classPath = rule.classPath &&
    match rule.condition with
    | none => true
    | some (path, value) => operation.object.lookup path = some value

/-! ## Contents -/

structure Contents where
  objects : List StoreObject := []
  nextId : Nat
  deriving DecidableEq

namespace Contents

def add (contents : Contents) (object : StoreObject) : Contents :=
  { contents with objects := contents.objects ++ [object] }

def ofClass (contents : Contents) (objectClass : ObjectClass) : List StoreObject :=
  contents.objects.filter fun stored => stored.classPath = objectClass.path

/-- Whether `stored` is an entry of the map type that carries the id of `table`. -/
def belongsTo (mapType : MapType) (table stored : StoreObject) : Bool :=
  let idPath := (ObjectClass.mapTable mapType).path ++ "/id"
  stored.classPath = (ObjectClass.mapEntry mapType).path &&
    stored.get? idPath = table.get? idPath

def entriesOf (contents : Contents) (mapType : MapType) (table : StoreObject) :
    List StoreObject :=
  contents.objects.filter (belongsTo mapType table)

def addressed (objectClass : ObjectClass) (object stored : StoreObject) : Bool :=
  stored.classPath = objectClass.path && objectClass.sameEntity stored object

def replaceFirst (condition : StoreObject → Bool) (replacement : StoreObject) :
    List StoreObject → List StoreObject
  | [] => []
  | stored :: rest =>
      if condition stored then replacement :: rest
      else stored :: replaceFirst condition replacement rest

/-- Give the object the next id if its class allocates ids and it has none. -/
def withId (contents : Contents) (objectClass : ObjectClass) (idPath : String)
    (object : StoreObject) : Except CodecError (StoreObject × Contents) :=
  if objectClass.allocatesId && !object.contains idPath then do
    let object ← objectClass.set object "id" (.uint contents.nextId)
    .ok (object, { contents with nextId := contents.nextId + 1 })
  else
    .ok (object, contents)

def hasParent (contents : Contents) (objectClass : ObjectClass) (idPath : String)
    (object : StoreObject) : Bool :=
  match objectClass.parent? with
  | none => true
  | some parent =>
      (object.get? idPath).isSome &&
        (contents.ofClass parent).any fun table => table.get? idPath = object.get? idPath

def create (contents : Contents) (objectClass : ObjectClass) (object : StoreObject) :
    Except Rejection (StoreObject × Contents) := do
  let idPath ← (objectClass.attrPath "id").mapError .codec
  let (created, contents) ← (contents.withId objectClass idPath object).mapError .codec
  if !contents.hasParent objectClass idPath created then
    .error (.parentMissing ((objectClass.parent?.getD objectClass).path))
  else if contents.objects.any (addressed objectClass created) then
    .error (.alreadyExists objectClass.path)
  else
    .ok (created, contents.add created)

def set (contents : Contents) (objectClass : ObjectClass) (object : StoreObject) :
    Except Rejection (StoreObject × Contents) :=
  match contents.objects.find? (addressed objectClass object) with
  | none => .error (.noSuch objectClass.path)
  | some stored =>
      let merged := stored.mergeFrom object
      .ok (merged, { contents with
        objects := replaceFirst (addressed objectClass object) merged contents.objects })

/-- Deleting a table deletes the entries that carry its id. -/
def delete (contents : Contents) (objectClass : ObjectClass) (object : StoreObject) :
    Except Rejection (StoreObject × Contents) :=
  match contents.objects.find? (addressed objectClass object) with
  | none => .error (.noSuch objectClass.path)
  | some removed =>
      let kept := contents.objects.eraseP (addressed objectClass object)
      let kept := match objectClass with
        | .mapTable mapType => kept.filter fun stored => !belongsTo mapType removed stored
        | _ => kept
      .ok (removed, { contents with objects := kept })

/-- Perform one operation. The answer is the object as it is stored afterwards,
or as it was before it was deleted. -/
def perform (rules : List FailureRule) (operation : Operation) (contents : Contents) :
    Except Rejection (StoreObject × Contents) := do
  if rules.any fun rule => rule.applies operation then
    .error (.refused operation.verb operation.object.classPath)
  else
    let objectClass ← (ObjectClass.ofPath operation.object.classPath).mapError .codec
    let (object, contents) ← match operation.verb with
      | .create => contents.create objectClass operation.object
      | .set => contents.set objectClass operation.object
      | .delete => contents.delete objectClass operation.object
    .ok (object.answer objectClass, contents)

def performAll (rules : List FailureRule) :
    List Operation → Contents → Except Rejection (List StoreObject × Contents)
  | [], contents => .ok ([], contents)
  | operation :: rest, contents => do
      let (answer, contents) ← contents.perform rules operation
      let (answers, contents) ← performAll rules rest contents
      .ok (answer :: answers, contents)

end Contents

end SwitchQos
