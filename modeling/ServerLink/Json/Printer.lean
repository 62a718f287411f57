import ServerLink.Json.Basic

/-!
# Writing a document

A value is written after the text in front of it. `render` puts no space anywhere; `pretty` puts
each item and member on a line of its own, two spaces deeper than what it is in.
-/

namespace ServerLink.Json

/-- How a document is broken into lines. -/
structure Style where
  /-- Items and members stand on lines of their own. -/
  broken : Bool
  /-- What follows a key. -/
  colon : String

def compactStyle : Style := { broken := false, colon := ":" }

def prettyStyle : Style := { broken := true, colon := ": " }

def hexDigit (n : Nat) : Char := Nat.digitChar (n % 16)

/-- A character of a string as it is written between the quotes. -/
def escape (c : Char) : String :=
  if c = '"' then "\\\""
  else if c = '\\' then "\\\\"
  else if c = '\x08' then "\\b"
  else if c = '\x0c' then "\\f"
  else if c = '\n' then "\\n"
  else if c = '\r' then "\\r"
  else if c = '\t' then "\\t"
  else if c < ' ' then "\\u00" ++ String.ofList [hexDigit (c.toNat / 16), hexDigit c.toNat]
  else c.toString

/-- Writes a string in quotes. -/
def putString (out : String) (s : String) : String :=
  (s.foldl (fun out c => out ++ escape c) (out.push '"')).push '"'

/-- Ends a line, if the style breaks lines, and indents the next. -/
def Style.newline (style : Style) (depth : Nat) (out : String) : String :=
  if style.broken then out ++ "\n" ++ String.ofList (List.replicate (2 * depth) ' ') else out

mutual

/-- Writes a value that stands `depth` levels deep. -/
def put (style : Style) (depth : Nat) : Json → String → String
  | .null, out => out ++ "null"
  | .bool true, out => out ++ "true"
  | .bool false, out => out ++ "false"
  | .number n, out => out ++ n.text
  | .string s, out => putString out s
  | .array [], out => out ++ "[]"
  | .array (v :: vs), out =>
    (style.newline depth
      (putItems style (depth + 1) vs
        (put style (depth + 1) v (style.newline (depth + 1) (out.push '['))))).push ']'
  | .object [], out => out ++ "\x7b\x7d"
  | .object ((k, v) :: ms), out =>
    (style.newline depth
      (putMembers style (depth + 1) ms
        (put style (depth + 1) v
          (putString (style.newline (depth + 1) (out.push '\x7b')) k ++ style.colon)))).push '\x7d'

/-- Writes the items after the first. -/
def putItems (style : Style) (depth : Nat) : List Json → String → String
  | [], out => out
  | v :: vs, out => putItems style depth vs (put style depth v (style.newline depth (out.push ',')))

/-- Writes the members after the first. -/
def putMembers (style : Style) (depth : Nat) : List (String × Json) → String → String
  | [], out => out
  | (k, v) :: ms, out =>
    putMembers style depth ms
      (put style depth v (putString (style.newline depth (out.push ',')) k ++ style.colon))

end

/-- The text of a value without spaces. -/
def render (v : Json) : String := put compactStyle 0 v ""

/-- The text of a value over several lines. -/
def pretty (v : Json) : String := put prettyStyle 0 v ""

end ServerLink.Json
