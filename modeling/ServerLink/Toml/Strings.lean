import ServerLink.Text.Hex

/-!
# TOML strings

The four kinds of string, each read from after its opening quotes to after its closing ones. In
the kinds over several lines one or two quotes are text, also right before the closing three.
-/

namespace ServerLink.Toml

/-- What is left of a text after something was read from it. -/
abbrev Read (α : Type) := Option (α × List Char)

def isWhitespace (c : Char) : Bool := c = ' ' || c = '\t'

/-- A character that stands for itself in a basic string. -/
def isBasic (c : Char) : Bool := c = '\t' || (' ' ≤ c && c ≠ '"' && c ≠ '\\' && c ≠ '\x7f')

/-- A character that stands for itself in a literal string. -/
def isLiteral (c : Char) : Bool := c = '\t' || (' ' ≤ c && c ≠ '\'' && c ≠ '\x7f')

/-- What a one-letter escape stands for. -/
def escaped? : Char → Option Char
  | 'b' => some '\x08'
  | 't' => some '\t'
  | 'n' => some '\n'
  | 'f' => some '\x0c'
  | 'r' => some '\r'
  | '"' => some '"'
  | '\\' => some '\\'
  | _ => none

/-- The character with this code point, written in hexadecimal digits. -/
def codePoint? (digits : List Char) : Option Char := do
  Text.ofCodePoint? (← digits.foldl (fun n d => do return 16 * (← n) + (← Text.hexDigit? d)) (some 0))

/-- A string on one line with escapes. -/
def basic (text : String) : List Char → Read String
  | '"' :: r => some (text, r)
  | '\\' :: 'u' :: a :: b :: c :: d :: r =>
    match codePoint? [a, b, c, d] with
    | some x => basic (text.push x) r
    | none => none
  | '\\' :: 'U' :: a :: b :: c :: d :: e :: f :: g :: h :: r =>
    match codePoint? [a, b, c, d, e, f, g, h] with
    | some x => basic (text.push x) r
    | none => none
  | '\\' :: e :: r =>
    match escaped? e with
    | some x => basic (text.push x) r
    | none => none
  | c :: r => if isBasic c then basic (text.push c) r else none
  | [] => none

/-- A string on one line without escapes. -/
def literal (text : String) : List Char → Read String
  | '\'' :: r => some (text, r)
  | c :: r => if isLiteral c then literal (text.push c) r else none
  | [] => none

/-- Where a string over several lines stands. -/
inductive LineMode where
  | text
  /-- After a backslash and blanks: the line has to end. -/
  | lineEnd
  /-- After a line end that a backslash takes away: so are the blanks and line ends that follow. -/
  | skip
deriving DecidableEq

/-- A string over several lines with escapes. -/
def multilineBasic : LineMode → String → List Char → Read String
  | .lineEnd, text, '\r' :: '\n' :: r => multilineBasic .skip text r
  | .lineEnd, text, c :: r =>
    if c = '\n' then multilineBasic .skip text r
    else if isWhitespace c then multilineBasic .lineEnd text r
    else none
  | .skip, text, ' ' :: r => multilineBasic .skip text r
  | .skip, text, '\t' :: r => multilineBasic .skip text r
  | .skip, text, '\n' :: r => multilineBasic .skip text r
  | .skip, text, '\r' :: '\n' :: r => multilineBasic .skip text r
  | _, text, '"' :: '"' :: '"' :: '"' :: '"' :: r => some (text ++ "\"\"", r)
  | _, text, '"' :: '"' :: '"' :: '"' :: r => some (text.push '"', r)
  | _, text, '"' :: '"' :: '"' :: r => some (text, r)
  | _, text, '"' :: r => multilineBasic .text (text.push '"') r
  | _, text, '\\' :: 'u' :: a :: b :: c :: d :: r =>
    match codePoint? [a, b, c, d] with
    | some x => multilineBasic .text (text.push x) r
    | none => none
  | _, text, '\\' :: 'U' :: a :: b :: c :: d :: e :: f :: g :: h :: r =>
    match codePoint? [a, b, c, d, e, f, g, h] with
    | some x => multilineBasic .text (text.push x) r
    | none => none
  | _, text, '\\' :: '\r' :: '\n' :: r => multilineBasic .skip text r
  | _, text, '\\' :: e :: r =>
    if e = '\n' then multilineBasic .skip text r
    else if isWhitespace e then multilineBasic .lineEnd text r
    else match escaped? e with
      | some x => multilineBasic .text (text.push x) r
      | none => none
  | _, text, '\r' :: '\n' :: r => multilineBasic .text (text.push '\n') r
  | _, text, c :: r =>
    if c = '\n' || isBasic c then multilineBasic .text (text.push c) r else none
  | _, _, [] => none

/-- A string over several lines without escapes. -/
def multilineLiteral (text : String) : List Char → Read String
  | '\'' :: '\'' :: '\'' :: '\'' :: '\'' :: r => some (text ++ "''", r)
  | '\'' :: '\'' :: '\'' :: '\'' :: r => some (text.push '\'', r)
  | '\'' :: '\'' :: '\'' :: r => some (text, r)
  | '\'' :: r => multilineLiteral (text.push '\'') r
  | '\r' :: '\n' :: r => multilineLiteral (text.push '\n') r
  | c :: r => if c = '\n' || isLiteral c then multilineLiteral (text.push c) r else none
  | [] => none

/-- The text after the line end that may follow opening quotes. -/
def afterLineEnd : List Char → List Char
  | '\n' :: r => r
  | '\r' :: '\n' :: r => r
  | r => r

/-- A string of any kind, from its opening quotes on. -/
def readString : List Char → Read String
  | '"' :: '"' :: '"' :: r => multilineBasic .text "" (afterLineEnd r)
  | '"' :: r => basic "" r
  | '\'' :: '\'' :: '\'' :: r => multilineLiteral "" (afterLineEnd r)
  | '\'' :: r => literal "" r
  | _ => none

end ServerLink.Toml
