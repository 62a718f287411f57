import ServerLink.Json.Printer
import ServerLink.Text.Quoted

/-!
# Reading typed records from values

A `Decoder` reads one typed value and says in a `ShapeError` what is wrong with a value it cannot
read. `Fields` describes the fields of a record; `record` reads them from an object, by name, or
from an array, by position. From an object a field sees only its own member, so members that no
field names never matter.
-/

namespace ServerLink.Json

/-- What a decoder expects. -/
inductive Kind where
  | string
  | boolean
  | float
  /-- An unsigned integer of so many bits. -/
  | unsigned (bits : Nat)
  /-- An unsigned integer as wide as an address. -/
  | size
  | signed (bits : Nat)
  | record (name : String)
deriving DecidableEq, Repr

/-- Why a value is not the expected one. -/
inductive ShapeError where
  | wrongType (got : Json) (expected : Kind)
  | outOfRange (got : Int) (expected : Kind)
  /-- An object without a required field. -/
  | missing (field : String)
  /-- An array that ends before the required field at this index. -/
  | tooFew (index : Nat) (record : String) (fields : Nat)
  /-- An array of this length, with items after the last field. -/
  | tooMany (length : Nat)
  /-- A text that names no member of a fixed set. -/
  | unknown (what : String) (text : String)
deriving DecidableEq

def Kind.describe : Kind → String
  | .string => "a string"
  | .boolean => "a boolean"
  | .float => "f64"
  | .unsigned bits => "u" ++ toString bits
  | .size => "usize"
  | .signed bits => "i" ++ toString bits
  | .record name => "struct " ++ name

/-- A value as an error names it. -/
def describe : Json → String
  | .null => "null"
  | .bool b => "boolean `" ++ (if b then "true" else "false") ++ "`"
  | .number (.integer i _) => "integer `" ++ toString i ++ "`"
  | .number (.float x) => "floating point `" ++ Number.floatText x ++ "`"
  | .string s => "string " ++ Text.quoted s
  | .array _ => "sequence"
  | .object _ => "map"

def ShapeError.message : ShapeError → String
  | .wrongType got expected => "invalid type: " ++ got.describe ++ ", expected " ++ expected.describe
  | .outOfRange got expected =>
    "invalid value: integer `" ++ toString got ++ "`, expected " ++ expected.describe
  | .missing field => "missing field `" ++ field ++ "`"
  | .tooFew index record fields =>
    "invalid length " ++ toString index ++ ", expected struct " ++ record ++ " with " ++
      toString fields ++ " elements"
  | .tooMany length =>
    "invalid length " ++ toString length ++ ", expected fewer elements in array"
  | .unknown what text => "unknown " ++ what ++ ": " ++ text

/-- Reads a typed value. -/
abbrev Decoder (α : Type) := Json → Except ShapeError α

namespace Decoder

/-- Any value, as it is. -/
def any : Decoder Json := .ok

def string : Decoder String
  | .string s => .ok s
  | v => .error (.wrongType v .string)

def boolean : Decoder Bool
  | .bool b => .ok b
  | v => .error (.wrongType v .boolean)

/-- An integer from `low` to below `high`; a floating-point number is none, whatever its value. -/
def integer (low high : Int) (expected : Kind) : Decoder Int
  | .number (.integer i _) =>
    if low ≤ i ∧ i < high then .ok i else .error (.outOfRange i expected)
  | v => .error (.wrongType v expected)

def unsigned (bits : Nat) : Decoder Nat := fun v =>
  (integer 0 (2 ^ bits) (.unsigned bits) v).map Int.toNat

def size : Decoder Nat := fun v => (integer 0 (2 ^ 64) .size v).map Int.toNat

def signed (bits : Nat) : Decoder Int :=
  integer (-2 ^ (bits - 1)) (2 ^ (bits - 1)) (.signed bits)

/-- A floating-point number; an integer is rounded to the nearest one. -/
def float : Decoder Binary64 := fun v =>
  match v with
  | .number (.float x) => .ok x
  | .number (.integer i _) =>
    match Binary64.ofRatio (decide (i < 0)) i.natAbs 1 with
    | some x => .ok x
    | none => .error (.wrongType v .float)
  | _ => .error (.wrongType v .float)

/-- A value that may be null. -/
def option {α : Type} (d : Decoder α) : Decoder (Option α)
  | .null => .ok none
  | v => (d v).map some

end Decoder

/-- What is wrong with the members of an object: fields that cannot be read, and required ones
that are absent, in declaration order. -/
structure Problems where
  wrong : List (String × ShapeError)
  missing : List String

/-- The first of the unreadable fields in the order of their names. -/
def Problems.firstWrong : List (String × ShapeError) → Option (String × ShapeError)
  | [] => none
  | p :: ps =>
    match firstWrong ps with
    | none => some p
    | some q => some (if q.1 < p.1 then q else p)

/-- The error that is reported: an unreadable field before an absent one. -/
def Problems.report (p : Problems) : ShapeError :=
  match Problems.firstWrong p.wrong with
  | some (_, e) => e
  | none => .missing (p.missing.headD "")

/-- How the fields of a record are read. -/
structure Fields (α : Type) where
  names : List String
  /-- From an object, given by what its members are. -/
  ofMembers : (String → Option Json) → Except Problems α
  /-- From the items of an array, the first of which has this index; gives the items left. The
  error of a required field that is absent is made from its index. -/
  ofItems : (tooFew : Nat → ShapeError) → Nat → List Json → Except ShapeError (α × List Json)

namespace Fields

/-- One field, and its value when it is absent; a required field has none. -/
def one {α : Type} (name : String) (absent : Option α) (read : Decoder α) : Fields α where
  names := [name]
  ofMembers look :=
    match look name, absent with
    | some v, _ => (read v).mapError fun e => ⟨[(name, e)], []⟩
    | none, some a => .ok a
    | none, none => .error ⟨[], [name]⟩
  ofItems tooFew index items :=
    match items, absent with
    | v :: rest, _ => (read v).map (·, rest)
    | [], some a => .ok (a, [])
    | [], none => .error (tooFew index)

def required {α : Type} (name : String) (read : Decoder α) : Fields α := one name none read

/-- A field with a default. -/
def optional {α : Type} (name : String) (absent : α) (read : Decoder α) : Fields α :=
  one name (some absent) read

/-- A field that may be absent or null. -/
def nullable {α : Type} (name : String) (read : Decoder α) : Fields (Option α) :=
  one name (some none) read.option

/-- The first record's fields, then the second's. -/
def pair {α β : Type} (f : Fields α) (g : Fields β) : Fields (α × β) where
  names := f.names ++ g.names
  ofMembers look :=
    match f.ofMembers look, g.ofMembers look with
    | .ok a, .ok b => .ok (a, b)
    | .error p, .ok _ => .error p
    | .ok _, .error q => .error q
    | .error p, .error q => .error ⟨p.wrong ++ q.wrong, p.missing ++ q.missing⟩
  ofItems tooFew index items := do
    let (a, items) ← f.ofItems tooFew index items
    let (b, items) ← g.ofItems tooFew (index + f.names.length) items
    return ((a, b), items)

def map {α β : Type} (make : α → β) (f : Fields α) : Fields β where
  names := f.names
  ofMembers look := (f.ofMembers look).map make
  ofItems tooFew index items := (f.ofItems tooFew index items).map fun (a, rest) => (make a, rest)

end Fields

/-- Reads a record from an object by name or from an array by position. -/
def record {α : Type} (name : String) (fields : Fields α) : Decoder α
  | .object ms => (fields.ofMembers (ms.lookup ·)).mapError Problems.report
  | .array items => do
    let (a, rest) ← fields.ofItems (.tooFew · name fields.names.length) 0 items
    if rest.isEmpty then .ok a else .error (.tooMany items.length)
  | v => .error (.wrongType v (.record name))

end ServerLink.Json
