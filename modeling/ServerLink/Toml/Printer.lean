import ServerLink.Toml.Basic

/-!
# Writing TOML

A string is written as a basic one if nothing in it needs an escape, else in the first of these
forms that needs none: literal, basic over several lines, literal over several lines. Otherwise it
is basic, over several lines if it has a line break. A tab alone is escaped and asks for no other
form. What writes settings takes any printer of strings; this is the one that the program runs with.
-/

namespace ServerLink.Toml

/-- Writes a string with its quotes, or gives up on it with a message. -/
abbrev StringPrinter := String → Except String String

/-- The longest run of a character in a text. -/
def longestRun (c : Char) (cs : List Char) : Nat :=
  (cs.foldl (fun (here, longest) d =>
    if d = c then (here + 1, max longest (here + 1)) else (0, longest)) (0, 0)).2

/-- A control character that only an escape can write: any but the tab and the line break. -/
def isControl (c : Char) : Bool := (c < ' ' && c ≠ '\t' && c ≠ '\n') || c = '\x7f'

/-- The ways to write a string. -/
inductive Style where
  | basic
  | literal
  | multilineBasic
  | multilineLiteral
deriving DecidableEq, Repr

/-- The way a text is written. -/
def styleOf (cs : List Char) : Style :=
  let controls := cs.any isControl
  let backslash := cs.contains '\\'
  let newline := cs.contains '\n'
  let double := longestRun '"' cs
  let single := longestRun '\'' cs
  if !controls && !backslash && double = 0 && !newline then .basic
  else if !controls && single = 0 && !newline then .literal
  else if !controls && !backslash && double ≤ 2 then .multilineBasic
  else if !controls && single ≤ 2 then .multilineLiteral
  else if newline then .multilineBasic
  else .basic

def Style.isMultiline : Style → Bool
  | .multilineBasic | .multilineLiteral => true
  | .basic | .literal => false

def Style.delimiter : Style → String
  | .basic => "\""
  | .literal => "'"
  | .multilineBasic => "\"\"\""
  | .multilineLiteral => "'''"

/-- A character other than a quote in a string with escapes; a line break stays in one over
several lines. -/
def escapeChar (multiline : Bool) (c : Char) : String :=
  if c = '\x08' then "\\b"
  else if c = '\t' then "\\t"
  else if c = '\n' then (if multiline then "\n" else "\\n")
  else if c = '\x0c' then "\\f"
  else if c = '\r' then "\\r"
  else if c = '\\' then "\\\\"
  else if c < ' ' ∨ c = '\x7f' then
    "\\u00" ++ String.ofList
      [(Nat.digitChar (c.toNat / 16)).toUpper, (Nat.digitChar (c.toNat % 16)).toUpper]
  else c.toString

/-- A text with escapes. Over several lines two quotes in a row may stand, and a third is escaped;
on one line each is. `quotes` counts those just written. -/
def escapeChars (multiline : Bool) (quotes : Nat) (out : String) : List Char → String
  | [] => out
  | c :: cs =>
    if c = '"' then
      if multiline ∧ quotes < 2 then escapeChars multiline (quotes + 1) (out.push c) cs
      else escapeChars multiline 0 (out ++ "\\\"") cs
    else escapeChars multiline 0 (out ++ escapeChar multiline c) cs

/-- A string with its quotes. Over several lines a text with a line break starts on a line of its
own. -/
def writeString (s : String) : String :=
  let cs := s.toList
  let style := styleOf cs
  let start := if style.isMultiline && cs.contains '\n' then "\n" else ""
  let text := match style with
    | .literal | .multilineLiteral => s
    | .basic | .multilineBasic => escapeChars style.isMultiline 0 "" cs
  style.delimiter ++ start ++ text ++ style.delimiter

/-- The printer that the program runs with. It counts quotes in a row in eight bits. -/
def printString : StringPrinter := fun s =>
  if ['"', '\''].all fun quote => longestRun quote s.toList < 256 then .ok (writeString s)
  else .error "attempt to add with overflow"

/-- A value for a key, on a line of its own. -/
def writeEntry (key value : String) : String := key ++ " = " ++ value ++ "\n"

end ServerLink.Toml
