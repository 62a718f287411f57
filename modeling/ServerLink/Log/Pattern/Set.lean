import ServerLink.Log.Pattern.Element

/-!
# Sets of characters in brackets

A set holds characters, ranges of them, sets with a name, and other sets. Operators join what stands
on their two sides. How deep a set goes is counted, since a pattern may go no deeper than a limit.
-/

namespace ServerLink.Log.Pattern

/-- Things side by side, by the depths of what they are made of. Several in a row are one thing that
goes deeper than each of them. -/
structure Row where
  count : Nat := 0
  /-- The depth of the deepest but the last. -/
  others : Nat := 0
  last : Nat := 0
deriving DecidableEq, Repr

namespace Row

def push (r : Row) (depth : Nat) : Row :=
  { count := r.count + 1, others := max r.others r.last, last := depth }

def depth (r : Row) : Nat := if r.count ≤ 1 then r.last else max r.others r.last + 1

end Row

/-- A set that is being read. -/
structure OpenSet where
  row : Row := {}
  /-- The depth of what stands before the last operator. -/
  left : Option Nat := none
  /-- Nothing but hyphens has been read, which stand for themselves. -/
  fresh : Bool := false
deriving DecidableEq, Repr

namespace OpenSet

def depth (s : OpenSet) : Nat := s.left.elim s.row.depth fun d => max d s.row.depth + 1

/-- The set with another thing of some depth in it. -/
def push (s : OpenSet) (depth : Nat) : OpenSet := { s with row := s.row.push depth, fresh := false }

/-- The set behind an operator. -/
def operator (s : OpenSet) : OpenSet := { left := some s.depth }

/-- The names that sets of ASCII have. -/
def names : List String :=
  ["alnum", "alpha", "ascii", "blank", "cntrl", "digit", "graph", "lower", "print", "punct", "space",
    "upper", "word", "xdigit"]

/-- Reads a set given by its name, from behind its bracket, and says whether it is the complement
that is meant. -/
def named? : List Char → Option (Bool × List Char)
  | ':' :: cs =>
    let negated := cs.head? = some '^'
    let cs := if negated then cs.drop 1 else cs
    let name := cs.takeWhile (· ≠ ':')
    match cs.drop name.length with
    | ':' :: ']' :: rest => if names.contains (String.ofList name) then some (negated, rest) else none
    | _ => none
  | _ => none

/-- Reads an element, or a range from one to another. A hyphen right before the end of the set, or
before another hyphen, makes no range. -/
def range? (m : Mode) (cs : List Char) : Option (List Char) := do
  let (low, rest) ← Element.ofSet? m cs
  match m.skip rest with
  | '-' :: behind =>
    if m.next? behind = some ']' || m.next? behind = some '-' then return '-' :: behind
    else
      let (high, rest) ← Element.ofSet? m (m.skip behind)
      match low, high with
      | .character a, .character b => if a ≤ b then return rest else none
      | _, _ => none
  | rest => return rest

/-- Opens a set, from behind its bracket. The complement of a set of bytes holds more than ASCII. -/
def start? (m : Mode) (cs : List Char) : Option (OpenSet × List Char) :=
  match m.skip cs with
  | '^' :: cs => if m.unicode then some ({ fresh := true }, cs) else none
  | cs => some ({ fresh := true }, cs)

/-- Reads on to the end of the outermost set, and gives its depth. A bracket that comes first in a
set does not close it. -/
def read (m : Mode) : (fuel : Nat) → (inner : OpenSet) → (outer : List OpenSet) → List Char →
    Option (Nat × List Char)
  | 0, _, _, _ => none
  | fuel + 1, s, outer, cs =>
    match m.skip cs with
    | [] => none
    | ']' :: cs =>
      if s.fresh && s.row.count = 0 then read m fuel (s.push 0) outer cs
      else match outer with
        | [] => some (s.depth + 1, cs)
        | o :: outer => read m fuel (o.push (s.depth + 1)) outer cs
    | '[' :: cs =>
      match named? cs with
      | some (negated, rest) =>
        if negated && !m.unicode then none else read m fuel (s.push 0) outer rest
      | none => do
        let (inner, rest) ← start? m cs
        read m fuel inner (s :: outer) rest
    | c :: cs =>
      if c = '-' && s.fresh then read m fuel { s with row := s.row.push 0 } outer cs
      else if ['&', '-', '~'].contains c && cs.head? = some c then
        read m fuel s.operator outer (cs.drop 1)
      else do
        let rest ← range? m (c :: cs)
        read m fuel (s.push 0) outer rest

end OpenSet

/-- Reads a set, from behind its bracket, and gives its depth. -/
def readSet (m : Mode) (cs : List Char) : Option (Nat × List Char) := do
  let (s, rest) ← OpenSet.start? m cs
  OpenSet.read m (cs.length + 1) s [] rest

end ServerLink.Log.Pattern
