namespace SwitchQos

/-! White space is the Unicode property of that name: 25 characters in ten
ranges of code points, closed at both ends and listed in ascending order. -/

def blankRanges : List (Nat × Nat) :=
  [(0x09, 0x0D), (0x20, 0x20), (0x85, 0x85), (0xA0, 0xA0), (0x1680, 0x1680),
   (0x2000, 0x200A), (0x2028, 0x2029), (0x202F, 0x202F), (0x205F, 0x205F),
   (0x3000, 0x3000)]

example : (blankRanges.map fun range => range.2 + 1 - range.1).sum = 25 := by decide

def isBlank (char : Char) : Bool :=
  blankRanges.any fun range => range.1 ≤ char.toNat && char.toNat ≤ range.2

def trimChars (chars : List Char) : List Char :=
  ((chars.dropWhile isBlank).reverse.dropWhile isBlank).reverse

def trim (text : String) : String := String.ofList (trimChars text.toList)

example : trimChars ['\t', ' ', 'a', ' ', 'b', '\u00a0', '\n'] =
    ['a', ' ', 'b'] := by decide

end SwitchQos
