import ServerLink.Text.Blank
import ServerLink.Text.Hex

/-!
# Elements of a pattern

The smallest things a pattern is made of: characters, escapes that stand for characters, for a set
of them or for a place between them, and the blanks that may stand in between.
-/

namespace ServerLink.Log.Pattern

/-- How a stretch of a pattern is read. -/
structure Mode where
  /-- Sets hold characters of all kinds. Otherwise they hold single bytes, and of those only the
  ones of ASCII are characters. -/
  unicode : Bool := true
  /-- Blanks do not count, nor does the rest of a line from a `#` on. -/
  spaced : Bool := false
deriving DecidableEq, Repr

/-- Without the blanks and comments at the start. -/
def skipBlanks : (comment : Bool) → List Char → List Char
  | _, [] => []
  | true, c :: cs => skipBlanks (c ≠ '\n') cs
  | false, c :: cs =>
    if Text.isBlank c then skipBlanks false cs
    else if c = '#' then skipBlanks true cs
    else c :: cs

/-- Without what does not count at the start. -/
def Mode.skip (m : Mode) (cs : List Char) : List Char :=
  if m.spaced then skipBlanks false cs else cs

/-- What follows, as far as a hyphen in a set sees it: behind a `#` nothing but blanks is skipped. -/
def Mode.next? (m : Mode) (cs : List Char) : Option Char :=
  if m.spaced then
    let rest := match cs.dropWhile Text.isBlank with
      | '#' :: r => r.dropWhile Text.isBlank
      | r => r
    rest.head? <|> cs.head?
  else cs.head?

inductive Element where
  | character (c : Char)
  /-- One character of several. -/
  | set
  /-- A place between characters. -/
  | place
deriving DecidableEq, Repr

namespace Element

/-- Reads the digits of a code point. -/
def codePoint? (m : Mode) : (digits : Nat) → (value : Nat) → List Char → Option (Nat × List Char)
  | 0, n, cs => some (n, cs)
  | digits + 1, n, cs =>
    match m.skip cs with
    | [] => none
    | c :: cs => (Text.hexDigit? c).bind fun d => codePoint? m digits (16 * n + d) cs

/-- Reads a character given by its code point. One of two digits is a byte where bytes count. -/
def numbered? (m : Mode) (digits : Nat) (cs : List Char) : Option (Element × List Char) := do
  let (n, cs) ← codePoint? m digits 0 cs
  if !m.unicode && digits = 2 && 0x80 ≤ n then none
  else return (.character (← Text.ofCodePoint? n), cs)

/-- The letters that name a category of characters. -/
def categories : List Char := ['C', 'L', 'M', 'N', 'P', 'S', 'Z']

/-- Reads the name of a category. A longer name would stand in braces. -/
def category? (m : Mode) (cs : List Char) : Option (Element × List Char) :=
  match m.skip cs with
  | [] => none
  | c :: cs => if m.unicode && categories.contains c.toUpper then some (.set, cs) else none

/-- A character that stands for itself behind a backslash. -/
def isEscapable (c : Char) : Bool := c.toNat < 0x80 && !c.isAlphanum

/-- Reads an escape, from behind its backslash. Single bytes that are in no set of ASCII, and the
boundaries of words that are not in ASCII, are beyond what is matched here. -/
def ofEscape? (m : Mode) : List Char → Option (Element × List Char)
  | [] => none
  | c :: cs =>
    match c with
    | 'x' => numbered? m 2 cs
    | 'u' => numbered? m 4 cs
    | 'U' => numbered? m 8 cs
    | 'p' | 'P' => category? m cs
    | 'd' | 's' | 'w' => some (.set, cs)
    | 'D' | 'S' | 'W' => if m.unicode then some (.set, cs) else none
    | 'b' | 'B' | '<' | '>' => if m.unicode then none else some (.place, cs)
    | 'A' | 'z' => some (.place, cs)
    | 'a' => some (.character '\x07', cs)
    | 'f' => some (.character '\x0c', cs)
    | 'n' => some (.character '\n', cs)
    | 'r' => some (.character '\r', cs)
    | 't' => some (.character '\t', cs)
    | 'v' => some (.character '\x0b', cs)
    | c => if isEscapable c then some (.character c, cs) else none

/-- Reads an element of a set. A character is one of ASCII where bytes count. -/
def ofSet? (m : Mode) : List Char → Option (Element × List Char)
  | [] => none
  | c :: cs => do
    let (e, rest) ← if c = '\\' then ofEscape? m cs else some (.character c, cs)
    match e with
    | .character x => if !m.unicode && 0x80 ≤ x.toNat then none else return (e, rest)
    | .set => return (e, rest)
    | .place => none

end Element

end ServerLink.Log.Pattern
