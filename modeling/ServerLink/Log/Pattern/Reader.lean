import ServerLink.Log.Pattern.Set
import ServerLink.Text.Letter

/-!
# Patterns

A pattern is a regular expression for the value of a field. It is well-formed if it can be read to
its end and goes no deeper than a limit. A count of repetitions would stand in braces, and the brace
that closes it closes the field before, so there is none.
-/

namespace ServerLink.Log.Pattern

/-- How deep a pattern may go. -/
def maxDepth : Nat := 250

/-- A group, or the pattern as a whole, that is being read. -/
structure OpenGroup where
  mode : Mode := {}
  /-- The depth of the deepest branch before the last bar. -/
  branches : Option Nat := none
  row : Row := {}
  /-- Something was read last that may be repeated. -/
  repeatable : Bool := false
deriving DecidableEq, Repr

namespace OpenGroup

def depth (g : OpenGroup) : Nat := g.branches.elim g.row.depth fun d => max d g.row.depth + 1

/-- The group with another thing of some depth. -/
def push (g : OpenGroup) (depth : Nat) : OpenGroup :=
  { g with row := g.row.push depth, repeatable := true }

/-- The group with the last thing repeated. -/
def again? (g : OpenGroup) : Option OpenGroup :=
  if g.repeatable then some { g with row := { g.row with last := g.row.last + 1 } } else none

/-- The group behind a bar. -/
def bar (g : OpenGroup) : OpenGroup :=
  { mode := g.mode, branches := some (g.branches.elim g.row.depth fun d => max d g.row.depth) }

/-- The group with its mode changed from here on. -/
def change (g : OpenGroup) (mode : Mode) : OpenGroup :=
  { g with mode, row := g.row.push 0, repeatable := false }

end OpenGroup

/-- What begins with a parenthesis. -/
inductive Opening where
  | group (mode : Mode)
  | named (name : String)
  /-- No group: the mode changes. -/
  | change (mode : Mode)
deriving DecidableEq, Repr

namespace Opening

/-- The letters that switch a mode on, or behind a hyphen off. -/
def letters : List Char := ['i', 'm', 's', 'U', 'u', 'R', 'x']

/-- The mode that a letter leads to. Most letters say nothing about reading. -/
def withLetter (m : Mode) (c : Char) (on : Bool) : Mode :=
  if c = 'u' then { m with unicode := on }
  else if c = 'x' then { m with spaced := on }
  else m

/-- Reads letters up to a colon, which opens a group, or a parenthesis. No letter may be given
twice, nor the hyphen, behind which a letter has to follow. -/
def ofLetters? (m : Mode) (seen : List Char) : List Char → Option (Opening × List Char)
  | [] => none
  | c :: cs =>
    if c = ':' then if seen.head? = some '-' then none else some (.group m, cs)
    else if c = ')' then
      if seen.isEmpty || seen.head? = some '-' then none else some (.change m, cs)
    else if seen.contains c then none
    else if c = '-' then ofLetters? m (c :: seen) cs
    else if letters.contains c then
      ofLetters? (withLetter m c (!seen.contains '-')) (c :: seen) cs
    else none

/-- A character that may start the name of a group. -/
def startsName (c : Char) : Bool := c = '_' || Text.isLetter c

/-- A character that may stand in the name of a group behind the first. -/
def continuesName (c : Char) : Bool :=
  ['_', '.', '[', ']'].contains c || Text.isLetterOrNumeral c

/-- Reads the name of a group. -/
def ofName? (cs : List Char) : Option (Opening × List Char) :=
  let name := cs.takeWhile (· ≠ '>')
  match cs.drop name.length with
  | '>' :: rest =>
    if name.head?.any startsName && (name.drop 1).all continuesName then
      some (.named (String.ofList name), rest)
    else none
  | _ => none

/-- Reads what follows a parenthesis. -/
def read? (m : Mode) (cs : List Char) : Option (Opening × List Char) :=
  match m.skip cs with
  | '?' :: 'P' :: '<' :: cs | '?' :: '<' :: cs => ofName? cs
  | '?' :: cs => ofLetters? m [] cs
  | cs => some (.group m, cs)

end Opening

/-- What has been read of a pattern. -/
structure Progress where
  group : OpenGroup := {}
  /-- The groups around it, the nearest first. -/
  outer : List OpenGroup := []
  names : List String := []
deriving DecidableEq, Repr

namespace Progress

def push (p : Progress) (depth : Nat) : Progress := { p with group := p.group.push depth }

/-- Inside a group that has just been opened. -/
def enter (p : Progress) (mode : Mode) : Progress :=
  { p with group := { mode }, outer := p.group :: p.outer }

/-- Behind what begins with a parenthesis. Names are not given twice. -/
def afterOpening? (p : Progress) : Opening → Option Progress
  | .group mode => some (p.enter mode)
  | .named name =>
    if p.names.contains name then none
    else some { p.enter p.group.mode with names := name :: p.names }
  | .change mode => some { p with group := p.group.change mode }

/-- Behind a group. -/
def leave? (p : Progress) : Option Progress :=
  match p.outer with
  | [] => none
  | g :: outer => some { p with group := g.push (p.group.depth + 1), outer }

/-- Reads the next thing in a pattern. A second question mark says how a repetition is matched. -/
def next? (p : Progress) (c : Char) (cs : List Char) : Option (Progress × List Char) :=
  let mode := p.group.mode
  match c with
  | '(' => do
    let (o, cs) ← Opening.read? mode cs
    return (← p.afterOpening? o, cs)
  | ')' => p.leave?.map (·, cs)
  | '|' => some ({ p with group := p.group.bar }, cs)
  | '[' => (readSet mode cs).map fun (depth, cs) => (p.push depth, cs)
  | '?' | '*' | '+' =>
    p.group.again?.map fun group =>
      ({ p with group }, if cs.head? = some '?' then cs.drop 1 else cs)
  | '\x7b' => none
  | '.' => if mode.unicode then some (p.push 0, cs) else none
  | '\\' => (Element.ofEscape? mode cs).map fun (_, cs) => (p.push 0, cs)
  | _ => some (p.push 0, cs)

/-- Reads a pattern to its end, and gives its depth. -/
def read : (fuel : Nat) → Progress → List Char → Option Nat
  | 0, _, _ => none
  | fuel + 1, p, cs =>
    match p.group.mode.skip cs with
    | [] => if p.outer.isEmpty then some p.group.depth else none
    | c :: cs =>
      match p.next? c cs with
      | some (p, cs) => read fuel p cs
      | none => none

end Progress

def isWellFormed (cs : List Char) : Bool :=
  (Progress.read (cs.length + 1) {} cs).any (· ≤ maxDepth)

end ServerLink.Log.Pattern
