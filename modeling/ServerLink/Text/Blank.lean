import ServerLink.Text.Ranges

/-!
# Blank characters

The characters with Unicode's White_Space property, and trimming by them.
-/

namespace ServerLink.Text

/-- The White_Space property. -/
def blankRanges : List (Nat × Nat) :=
  [(0x9, 0xd), (0x20, 0x20), (0x85, 0x85), (0xa0, 0xa0), (0x1680, 0x1680), (0x2000, 0x200a),
   (0x2028, 0x2029), (0x202f, 0x202f), (0x205f, 0x205f), (0x3000, 0x3000)]

def isBlank (c : Char) : Bool := within blankRanges c

/-- The text has no character that is not blank. -/
def allBlank (s : String) : Bool := s.all isBlank

/-- The characters without the blank ones at the end. -/
def trimEndChars (cs : List Char) : List Char := (cs.reverse.dropWhile isBlank).reverse

/-- The characters without the blank ones at both ends. -/
def trimChars (cs : List Char) : List Char := trimEndChars (cs.dropWhile isBlank)

def trimEnd (s : String) : String := String.ofList (trimEndChars s.toList)

def trim (s : String) : String := String.ofList (trimChars s.toList)

end ServerLink.Text
