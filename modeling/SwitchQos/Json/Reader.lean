import SwitchQos.Json.Token

namespace SwitchQos

/-! Reading a document token by token. Containers that are still open lie on a
stack, so deep nesting needs no recursion. -/

namespace Json

inductive OpenContainer where
  | array (items : List Json)
  /-- The value of `key` is due. -/
  | object (members : List (JsonText × Json)) (key : JsonText)
  deriving Repr

/-- What may come next; `opened` are the open containers from the inside out. -/
inductive Place where
  | valueDue (opened : List OpenContainer)
  | valueOrClose (opened : List OpenContainer)
  | keyDue (members : List (JsonText × Json)) (opened : List OpenContainer)
  | keyOrClose (opened : List OpenContainer)
  | colonDue (members : List (JsonText × Json)) (key : JsonText)
      (opened : List OpenContainer)
  /-- A value is complete; what it belongs to goes on or is closed. -/
  | complete (value : Json) (opened : List OpenContainer)
  deriving Repr

namespace Place

def startValue (opened : List OpenContainer) : JsonToken → Option Place
  | .openArray => some (.valueOrClose opened)
  | .openObject => some (.keyOrClose opened)
  | .text content => some (.complete (.text content) opened)
  | .word value => some (.complete value opened)
  | _ => none

def next : Place → JsonToken → Option Place
  | .valueDue opened, token => startValue opened token
  | .valueOrClose opened, .closeArray => some (.complete (.array []) opened)
  | .valueOrClose opened, token => startValue (.array [] :: opened) token
  | .keyDue members opened, .text key => some (.colonDue members key opened)
  | .keyOrClose opened, .closeObject => some (.complete (.object []) opened)
  | .keyOrClose opened, .text key => some (.colonDue [] key opened)
  | .colonDue members key opened, .colon =>
      some (.valueDue (.object members key :: opened))
  | .complete value (.array items :: opened), .comma =>
      some (.valueDue (.array (value :: items) :: opened))
  | .complete value (.array items :: opened), .closeArray =>
      some (.complete (.array (value :: items).reverse) opened)
  | .complete value (.object members key :: opened), .comma =>
      some (.keyDue ((key, value) :: members) opened)
  | .complete value (.object members key :: opened), .closeObject =>
      some (.complete (.object ((key, value) :: members).reverse) opened)
  | _, _ => none

def result? : Place → Option Json
  | .complete value [] => some value
  | _ => none

end Place

def ofTokens? (tokens : List JsonToken) : Option Json := do
  let place ← tokens.foldlM Place.next (.valueDue [])
  place.result?

def ofText? (text : String) : Option Json := do
  let tokens ← JsonToken.scan text.toList
  ofTokens? tokens

end Json

end SwitchQos
