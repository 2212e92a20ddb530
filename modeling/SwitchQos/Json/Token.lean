import SwitchQos.Json.Basic

namespace SwitchQos

/-! The tokens of a document. Outside of texts a run of letters, digits, signs and
points is one word, and white space is space, tabulator, line feed and carriage
return. -/

inductive JsonToken where
  | openArray
  | closeArray
  | openObject
  | closeObject
  | comma
  | colon
  | text (content : JsonText)
  | word (value : Json)
  deriving Repr

namespace JsonToken

/-! ## Texts -/

inductive Piece where
  | char (content : Char)
  | unit (code : Nat)
  deriving DecidableEq, Repr

def isLeading (code : Nat) : Bool := 0xD800 ≤ code && code < 0xDC00

def isTrailing (code : Nat) : Bool := 0xDC00 ≤ code && code < 0xE000

def paired (leading trailing : Nat) : Char :=
  Char.ofNat (0x10000 + (leading - 0xD800) * 0x400 + (trailing - 0xDC00))

/-- The characters that the pieces stand for. `leading` is a leading surrogate
whose trailing one has to come next. -/
def characters : (leading : Option Nat) → List Piece → Option (List Char)
  | none, [] => some []
  | some _, [] => none
  | none, .char content :: rest => (characters none rest).map (content :: ·)
  | some _, .char _ :: _ => none
  | none, .unit code :: rest =>
      if isLeading code then characters (some code) rest
      else if isTrailing code then none
      else (characters none rest).map (Char.ofNat code :: ·)
  | some leading, .unit code :: rest =>
      if isTrailing code then (characters none rest).map (paired leading code :: ·)
      else none

def textOf (pieces : List Piece) : JsonText := (characters none pieces).map String.ofList

example : characters none [.char 'a', .unit 0xD83D, .unit 0xDE00] =
    some ['a', '😀'] := by decide
example : characters none [.unit 0xDE00, .unit 0xD83D] = none := by decide

def escaped : Char → Option Char
  | '"' => some '"'
  | '\\' => some '\\'
  | '/' => some '/'
  | 'b' => some '\x08'
  | 'f' => some '\x0c'
  | 'n' => some '\n'
  | 'r' => some '\r'
  | 't' => some '\t'
  | _ => none

def hexDigit? (char : Char) : Option Nat :=
  if char.isDigit then some (char.toNat - '0'.toNat)
  else if 'a' ≤ char ∧ char ≤ 'f' then some (char.toNat - 'a'.toNat + 10)
  else if 'A' ≤ char ∧ char ≤ 'F' then some (char.toNat - 'A'.toNat + 10)
  else none

/-! ## Words -/

def isSpace (char : Char) : Bool :=
  char = ' ' || char = '\t' || char = '\n' || char = '\r'

def isWordChar (char : Char) : Bool :=
  char.isAlphanum || char = '-' || char = '+' || char = '.'

def ofWord? (chars : List Char) : Option JsonToken :=
  if chars = "true".toList then some (.word (.bool true))
  else if chars = "false".toList then some (.word (.bool false))
  else if chars = "null".toList then some (.word .null)
  else (Numeral.ofChars? chars).map fun numeral => .word (.number numeral)

def ofMark? : Char → Option JsonToken
  | '[' => some .openArray
  | ']' => some .closeArray
  | '{' => some .openObject
  | '}' => some .closeObject
  | ',' => some .comma
  | ':' => some .colon
  | _ => none

/-! ## Scanning

The scanner goes from character to character. Tokens, characters of a word and
pieces of a text are collected with the latest in front. -/

inductive Mode where
  | between
  | inWord (chars : List Char)
  | inText (pieces : List Piece)
  | inEscape (pieces : List Piece)
  /-- In an escape of which `missing + 1` hexadecimal digits have yet to come. -/
  | inUnit (pieces : List Piece) (code missing : Nat)
  deriving DecidableEq, Repr

structure Scan where
  tokens : List JsonToken := []
  mode : Mode := .between
  deriving Repr

namespace Scan

def add (scan : Scan) (token : JsonToken) : Scan := ⟨token :: scan.tokens, .between⟩

def start (scan : Scan) (char : Char) : Option Scan :=
  if isSpace char then some { scan with mode := .between }
  else if char = '"' then some { scan with mode := .inText [] }
  else if isWordChar char then some { scan with mode := .inWord [char] }
  else (ofMark? char).map scan.add

def next (scan : Scan) (char : Char) : Option Scan :=
  match scan.mode with
  | .between => scan.start char
  | .inWord chars =>
      if isWordChar char then some { scan with mode := .inWord (char :: chars) }
      else (ofWord? chars.reverse).bind fun token => (scan.add token).start char
  | .inText pieces =>
      if char = '"' then some (scan.add (.text (textOf pieces.reverse)))
      else if char = '\\' then some { scan with mode := .inEscape pieces }
      else if char < ' ' then none
      else some { scan with mode := .inText (.char char :: pieces) }
  | .inEscape pieces =>
      if char = 'u' then some { scan with mode := .inUnit pieces 0 3 }
      else (escaped char).map fun content =>
        { scan with mode := .inText (.char content :: pieces) }
  | .inUnit pieces code missing =>
      (hexDigit? char).map fun digit =>
        { scan with
          mode := match missing with
            | 0 => .inText (.unit (16 * code + digit) :: pieces)
            | missing + 1 => .inUnit pieces (16 * code + digit) missing }

def finish (scan : Scan) : Option (List JsonToken) :=
  match scan.mode with
  | .between => some scan.tokens.reverse
  | .inWord chars => (ofWord? chars.reverse).map fun token =>
      (scan.add token).tokens.reverse
  | _ => none

end Scan

def scan (chars : List Char) : Option (List JsonToken) := do
  let scan ← chars.foldlM Scan.next {}
  scan.finish

end JsonToken

end SwitchQos
