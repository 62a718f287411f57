import ServerLink.Toml.Document
import ServerLink.Toml.Numbers

/-!
# Reading TOML

`Toml.read?` reads the statements of a text and gives the table they define; `none` if the text is
not TOML 1.0. Arrays and inline tables nest less than `maxDepth` deep, and a dotted key has fewer
parts than that.
-/

namespace ServerLink.Toml

/-- The bound on nesting and on the parts of a key. -/
def maxDepth : Nat := 80

def skipWhitespace (cs : List Char) : List Char := cs.dropWhile isWhitespace

/-- A character that may stand in a comment. -/
def isComment (c : Char) : Bool := c = '\t' || (' ' ≤ c && c ≠ '\x7f')

/-- The text after a comment, if there is one. -/
def skipComment : List Char → List Char
  | '#' :: r => r.dropWhile isComment
  | r => r

/-- The text after the end of a line, which may hold blanks and a comment before. -/
def endLine (cs : List Char) : Option (List Char) :=
  match skipComment (skipWhitespace cs) with
  | [] => some []
  | '\n' :: r => some r
  | '\r' :: '\n' :: r => some r
  | _ => none

def isBareKey (c : Char) : Bool := c.isAlphanum || c = '_' || c = '-'

/-- One part of a key. -/
def simpleKey : List Char → Option (String × List Char)
  | '"' :: r => basic "" r
  | '\'' :: r => literal "" r
  | cs =>
    let k := cs.takeWhile isBareKey
    if k.isEmpty then none else some (String.ofList k, cs.dropWhile isBareKey)

/-- A key of at most `parts` parts, with blanks around each part. -/
def dottedKey : (parts : Nat) → List Char → Option (List String × List Char)
  | 0, _ => none
  | parts + 1, cs => do
    let (k, r) ← simpleKey (skipWhitespace cs)
    match skipWhitespace r with
    | '.' :: r => (dottedKey parts r).map fun (ks, r) => (k :: ks, r)
    | r => some ([k], r)

/-- A key as the path to a table and the last part. -/
def key (cs : List Char) : Option ((List String × String) × List Char) := do
  let (ks, r) ← dottedKey (maxDepth - 1) cs
  return ((ks.dropLast, ks.getLast?.getD ""), r)

/-- The text after blanks, comments and line ends, where a line end follows every comment;
`inComment` says whether the text starts inside of one. -/
def skipLines (inComment : Bool) : List Char → Option (List Char)
  | [] => if inComment then none else some []
  | '\n' :: r => skipLines false r
  | '\r' :: '\n' :: r => skipLines false r
  | c :: r =>
    if inComment then (if isComment c then skipLines true r else none)
    else if isWhitespace c then skipLines false r
    else if c = '#' then skipLines true r
    else some (c :: r)

/-- A value that holds no other. -/
def scalar (cs : List Char) : Option (Toml × List Char) :=
  match cs with
  | '"' :: _ | '\'' :: _ => (readString cs).map fun (s, r) => (.string s, r)
  | 't' :: 'r' :: 'u' :: 'e' :: r => some (.boolean true, r)
  | 'f' :: 'a' :: 'l' :: 's' :: 'e' :: r => some (.boolean false, r)
  | _ =>
    match readTime cs with
    | some t => some t
    | none => number cs

mutual

/-- A value inside of `depth` arrays and inline tables. Every step down takes a character, so the
length of the text is fuel enough. -/
def valueAt (fuel depth : Nat) (cs : List Char) : Option (Toml × List Char) :=
  match fuel with
  | 0 => none
  | fuel + 1 =>
    match cs with
    | '[' :: r =>
      if depth + 1 < maxDepth then (items fuel (depth + 1) r).map fun (vs, r) => (.array vs, r)
      else none
    | '\x7b' :: r =>
      if depth + 1 < maxDepth then do
        match skipWhitespace r with
        | '\x7d' :: r => some (.table [], r)
        | _ =>
          let (ps, r) ← pairs fuel (depth + 1) r
          return (← inlineTable? ps, r)
      else none
    | cs => scalar cs

/-- The items of an array, up to its end. -/
def items (fuel depth : Nat) (cs : List Char) : Option ((List Toml) × List Char) :=
  match fuel with
  | 0 => none
  | fuel + 1 => do
    match ← skipLines false cs with
    | ']' :: r => some ([], r)
    | cs =>
      let (v, r) ← valueAt fuel depth cs
      match ← skipLines false r with
      | ']' :: r => some ([v], r)
      | ',' :: r => (items fuel depth r).map fun (vs, r) => (v :: vs, r)
      | _ => none

/-- The pairs of an inline table, of which there is at least one, up to its end. -/
def pairs (fuel depth : Nat) (cs : List Char) : Option ((List (List String × String × Toml)) × List Char) :=
  match fuel with
  | 0 => none
  | fuel + 1 => do
    let ((path, k), r) ← key cs
    let r ← expect '=' r
    let (v, r) ← valueAt fuel depth (skipWhitespace r)
    match skipWhitespace r with
    | '\x7d' :: r => some ([(path, k, v)], r)
    | ',' :: r => (pairs fuel depth r).map fun (ps, r) => ((path, k, v) :: ps, r)
    | _ => none

end

/-- A value. -/
def readValue (cs : List Char) : Option (Toml × List Char) := valueAt (2 * cs.length + 2) 0 cs

/-- A statement and the end of its line. -/
def statement (cs : List Char) : Option (Statement × List Char) :=
  match cs with
  | '[' :: '[' :: r => do
    let ((path, k), r) ← key r
    let r ← endLine (← expect ']' (← expect ']' r))
    return (.arrayHeader path k, r)
  | '[' :: r => do
    let ((path, k), r) ← key r
    let r ← endLine (← expect ']' r)
    return (.header path k, r)
  | cs => do
    let ((path, k), r) ← key cs
    let (v, r) ← readValue (skipWhitespace (← expect '=' r))
    return (.entry path k v, ← endLine r)

/-- The statements of a text; each takes a character at least. -/
def statements : (fuel : Nat) → List Char → Option (List Statement)
  | 0, _ => none
  | fuel + 1, cs => do
    match skipWhitespace cs with
    | [] => some []
    | '#' :: r => statements fuel (← endLine ('#' :: r))
    | '\n' :: r => statements fuel r
    | '\r' :: '\n' :: r => statements fuel r
    | cs =>
      let (s, r) ← statement cs
      return s :: (← statements fuel r)

/-- The table of a document, which a byte order mark may precede. -/
def read? (text : String) : Option (List (String × Toml)) :=
  let cs := match text.toList with
    | '\ufeff' :: r => r
    | cs => cs
  statements (cs.length + 1) cs >>= build?

end ServerLink.Toml
