import SwitchQos.Directory

namespace SwitchQos

/-! The store exchanges objects: a class path and binary values under storage
paths. A reply may carry the key attributes of an object in a nested object of
key data, and what stands deeper there takes precedence when the reply is read. -/

mutual
inductive StoreValue where
  /-- A number, or the code of a symbol. -/
  | bytes (content : List UInt8)
  /-- Numbers in order, each on its own. -/
  | list (items : List (List UInt8))
  /-- Nested objects: the entries of a table that was read. -/
  | entries (objects : List StoreObject)

structure StoreObject where
  classPath : String
  attrs : Directory String StoreValue
  keyData : Option StoreObject
end

/-! ## Equality

Objects are equal when class path, rows and key data are. -/

mutual
def StoreValue.decideEq : (left right : StoreValue) → Decidable (left = right)
  | .bytes left, .bytes right =>
      if same : left = right then .isTrue (by rw [same]) else .isFalse (by simp [same])
  | .list left, .list right =>
      if same : left = right then .isTrue (by rw [same]) else .isFalse (by simp [same])
  | .entries left, .entries right =>
      match StoreObject.decideEqAll left right with
      | .isTrue same => .isTrue (by rw [same])
      | .isFalse different => .isFalse (by simp [different])
  | .bytes _, .list _ | .bytes _, .entries _ | .list _, .bytes _
  | .list _, .entries _ | .entries _, .bytes _ | .entries _, .list _ => .isFalse (by simp)

def StoreObject.decideEq : (left right : StoreObject) → Decidable (left = right)
  | ⟨leftPath, ⟨leftRows⟩, leftKeys⟩, ⟨rightPath, ⟨rightRows⟩, rightKeys⟩ =>
      if samePath : leftPath = rightPath then
        match StoreObject.decideEqRows leftRows rightRows with
        | .isTrue sameRows =>
            match leftKeys, rightKeys with
            | none, none => .isTrue (by rw [samePath, sameRows])
            | some left, some right =>
                match StoreObject.decideEq left right with
                | .isTrue sameKeys => .isTrue (by rw [samePath, sameRows, sameKeys])
                | .isFalse different => .isFalse (by simp [different])
            | none, some _ | some _, none => .isFalse (by simp)
        | .isFalse different => .isFalse (by simp [different])
      else .isFalse (by simp [samePath])

def StoreObject.decideEqAll : (left right : List StoreObject) → Decidable (left = right)
  | [], [] => .isTrue rfl
  | [], _ :: _ | _ :: _, [] => .isFalse (by simp)
  | left :: lefts, right :: rights =>
      match StoreObject.decideEq left right with
      | .isTrue sameHead =>
          match StoreObject.decideEqAll lefts rights with
          | .isTrue sameTail => .isTrue (by rw [sameHead, sameTail])
          | .isFalse different => .isFalse (by simp [different])
      | .isFalse different => .isFalse (by simp [different])

def StoreObject.decideEqRows :
    (left right : List (String × StoreValue)) → Decidable (left = right)
  | [], [] => .isTrue rfl
  | [], _ :: _ | _ :: _, [] => .isFalse (by simp)
  | (leftPath, left) :: lefts, (rightPath, right) :: rights =>
      if samePath : leftPath = rightPath then
        match StoreValue.decideEq left right with
        | .isTrue sameValue =>
            match StoreObject.decideEqRows lefts rights with
            | .isTrue sameTail => .isTrue (by rw [samePath, sameValue, sameTail])
            | .isFalse different => .isFalse (by simp [different])
        | .isFalse different => .isFalse (by simp [different])
      else .isFalse (by simp [samePath])
end

instance : DecidableEq StoreValue := StoreValue.decideEq

instance : DecidableEq StoreObject := StoreObject.decideEq

namespace StoreObject

/-! ## Attributes -/

def new (classPath : String) : StoreObject := ⟨classPath, .empty, none⟩

def size (object : StoreObject) : Nat := object.attrs.size

def isEmpty (object : StoreObject) : Bool := object.size = 0 && object.keyData.isNone

/-- The object's own value, key data left aside. -/
def get? (object : StoreObject) (path : String) : Option StoreValue :=
  object.attrs.get? path

def contains (object : StoreObject) (path : String) : Bool := object.attrs.contains path

def insert (object : StoreObject) (path : String) (value : StoreValue) : StoreObject :=
  { object with attrs := object.attrs.insert path value }

def erase (object : StoreObject) (path : String) : StoreObject :=
  { object with attrs := object.attrs.erase path }

def withKeyData (object keyData : StoreObject) : StoreObject :=
  { object with keyData := some keyData }

/-- The value under `path`: that of the key data where it has one. -/
def lookup (path : String) : StoreObject → Option StoreValue
  | ⟨_, attrs, none⟩ => attrs.get? path
  | ⟨_, attrs, some keyData⟩ => (lookup path keyData).or (attrs.get? path)

def flattened : StoreObject → Directory String StoreValue
  | ⟨_, attrs, none⟩ => attrs
  | ⟨_, attrs, some keyData⟩ => attrs.insertAll (flattened keyData)

def mergeFrom (object other : StoreObject) : StoreObject :=
  { object with attrs := object.attrs.insertAll other.flattened }

/-! ## Laws -/

@[simp] theorem get?_insert_self (object : StoreObject) (path : String)
    (value : StoreValue) : (object.insert path value).get? path = some value := by
  simp [insert, get?]

theorem get?_insert_of_ne (object : StoreObject) {path wanted : String}
    (different : path ≠ wanted) (value : StoreValue) :
    (object.insert path value).get? wanted = object.get? wanted := by
  simp [insert, get?, Directory.get?_insert_of_ne, different]

theorem get?_flattened (path : String) :
    (object : StoreObject) → object.flattened.get? path = object.lookup path
  | ⟨_, _, none⟩ => rfl
  | ⟨_, attrs, some keyData⟩ => by
      rw [flattened, lookup, Directory.get?_insertAll, get?_flattened path keyData]

theorem get?_mergeFrom (object other : StoreObject) (path : String) :
    (object.mergeFrom other).get? path = (other.lookup path).or (object.get? path) := by
  simp [mergeFrom, get?, Directory.get?_insertAll, get?_flattened]

end StoreObject

end SwitchQos
