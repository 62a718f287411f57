import ServerLink.Json.Printer

/-!
# A document in pieces

A document can be written piece by piece: a mark, a literal, a number, a run of characters of a
string that stand for themselves, an escape. The pieces together are the text that `render` gives.
-/

namespace ServerLink.Json

/-- The character stands for itself in a string. -/
def isPlain (c : Char) : Bool := !(c = '"' || c = '\\' || c < ' ')

/-- A run of plain characters, kept in reverse, as a piece; an empty one is none. -/
def runPiece (run : List Char) : List String :=
  if run.isEmpty then [] else [String.ofList run.reverse]

/-- The pieces between the quotes of a string. `run` holds the plain characters just passed, the
latest first. -/
def insidePieces (run : List Char) : List Char → List String
  | [] => runPiece run
  | c :: cs =>
    if isPlain c then insidePieces (c :: run) cs
    else runPiece run ++ escape c :: insidePieces [] cs

def stringPieces (s : String) : List String := "\"" :: insidePieces [] s.toList ++ ["\""]

mutual

/-- The pieces of a value, in order. -/
def pieces : Json → List String
  | .null => ["null"]
  | .bool true => ["true"]
  | .bool false => ["false"]
  | .number n => [n.text]
  | .string s => stringPieces s
  | .array [] => ["[", "]"]
  | .array (v :: vs) => "[" :: pieces v ++ itemPieces vs ++ ["]"]
  | .object [] => ["\x7b", "\x7d"]
  | .object ((k, v) :: ms) =>
    "\x7b" :: stringPieces k ++ ":" :: pieces v ++ memberPieces ms ++ ["\x7d"]

/-- The pieces of the items after the first. -/
def itemPieces : List Json → List String
  | [] => []
  | v :: vs => "," :: pieces v ++ itemPieces vs

/-- The pieces of the members after the first. -/
def memberPieces : List (String × Json) → List String
  | [] => []
  | (k, v) :: ms => "," :: stringPieces k ++ ":" :: pieces v ++ memberPieces ms

end

end ServerLink.Json
