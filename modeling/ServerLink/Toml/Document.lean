import ServerLink.Toml.Basic

/-!
# What a TOML document means

A document is a list of statements, each of which adds to one table. A table is defined once: by a
header, by the dotted keys of one section, or, for as long as it has no header, by the headers of
tables inside it.
-/

namespace ServerLink.Toml

/-- A line of a document. -/
inductive Statement where
  /-- A value for a key, which may be dotted. -/
  | entry (path : List String) (key : String) (value : Toml)
  /-- The header of a table. -/
  | header (path : List String) (key : String)
  /-- The header of the next table in an array. -/
  | arrayHeader (path : List String) (key : String)

/-- What a key stands for while a document is read. -/
inductive Item where
  | value (v : Toml)
  /-- A table. It is `implicit` until a header names it, and `dotted` if a dotted key made it. -/
  | table (implicit dotted : Bool) (entries : List (String × Item))
  /-- The tables of an array that headers make. -/
  | tables (ts : List (List (String × Item)))

abbrev Entries := List (String × Item)

namespace Entries

def set (es : Entries) (key : String) (i : Item) : Entries :=
  if (es.lookup key).isSome then es.map fun e => if e.1 = key then (key, i) else e
  else es ++ [(key, i)]

/-- Changes the table at a path, where missing tables are made on the way. `change` also sees
whether dotted keys made the table. -/
def descend (dotted : Bool) (change : Bool → Entries → Option Entries) :
    (path : List String) → (isDotted : Bool) → Entries → Option Entries
  | [], isDotted, es => change isDotted es
  | k :: ks, _, es =>
    match es.lookup k with
    | none => (descend dotted change ks dotted []).map fun sub =>
      es ++ [(k, .table true dotted sub)]
    | some (.value _) => none
    | some (.table implicit d sub) =>
      if dotted && !implicit then none
      else (descend dotted change ks d sub).map fun sub => set es k (.table implicit d sub)
    | some (.tables ts) =>
      match ts.getLast? with
      | none => none
      | some last => (descend dotted change ks false last).map fun last =>
        set es k (.tables (ts.dropLast ++ [last]))

/-- Adds a value under a key that may be dotted. -/
def addValue (es : Entries) (path : List String) (key : String) (v : Toml) : Option Entries :=
  descend true (fun isDotted es =>
    if isDotted = path.isEmpty ∨ (es.lookup key).isSome then none
    else some (es ++ [(key, .value v)])) path false es

end Entries

/-- Which table the lines after a header add to. -/
structure Heading where
  path : List String
  key : String
  inArray : Bool

structure Builder where
  root : Entries := []
  current : Entries := []
  /-- None before the first header. -/
  heading? : Option Heading := none

namespace Builder

/-- Puts the current table where its header says. -/
def close (b : Builder) : Option Entries :=
  match b.heading? with
  | none => some b.current
  | some s =>
    Entries.descend false (fun _ es =>
      match es.lookup s.key, s.inArray with
      | none, true => some (es ++ [(s.key, .tables [b.current])])
      | some (.tables ts), true => some (es.set s.key (.tables (ts ++ [b.current])))
      | none, false => some (es ++ [(s.key, .table false false b.current)])
      | some (.table true _ _), false => some (es.set s.key (.table false false b.current))
      | _, _ => none) s.path false b.root

/-- The entries that a table has before its header, if the header is allowed. -/
def found (root : Entries) (path : List String) (key : String) : Option Entries :=
  match path with
  | [] =>
    match root.lookup key with
    | none => some []
    | some (.table true false sub) => some sub
    | _ => none
  | k :: ks =>
    match root.lookup k with
    | none => some []
    | some (.table _ _ sub) => found sub ks key
    | some (.tables ts) => found (ts.getLast?.getD []) ks key
    | some (.value _) => none

def header (b : Builder) (path : List String) (key : String) : Option Builder := do
  let root ← b.close
  let current ← found root path key
  let root ← Entries.descend false (fun _ es => some (es.filter (·.1 ≠ key))) path false root
  return { root, current, heading? := some ⟨path, key, false⟩ }

def arrayHeader (b : Builder) (path : List String) (key : String) : Option Builder := do
  let root ← b.close
  let root ← Entries.descend false (fun _ es =>
    match es.lookup key with
    | none => some es
    | some (.tables _) => some es
    | _ => none) path false root
  return { root, current := [], heading? := some ⟨path, key, true⟩ }

def step (b : Builder) : Statement → Option Builder
  | .entry path key v => (b.current.addValue path key v).map fun current => { b with current }
  | .header path key => b.header path key
  | .arrayHeader path key => b.arrayHeader path key

end Builder

mutual

def Item.toToml : Item → Toml
  | .value v => v
  | .table _ _ es => .table (entriesToToml es)
  | .tables ts => .array (tablesToToml ts)

def entriesToToml : List (String × Item) → List (String × Toml)
  | [] => []
  | (k, i) :: es => (k, i.toToml) :: entriesToToml es

def tablesToToml : List (List (String × Item)) → List Toml
  | [] => []
  | t :: ts => .table (entriesToToml t) :: tablesToToml ts

end

/-- The table that statements define, unless one of them is against the rules. -/
def build? (statements : List Statement) : Option (List (String × Toml)) := do
  let b ← statements.foldl (fun (b : Option Builder) s => b.bind (·.step s)) (some {})
  let es ← Builder.close b
  return entriesToToml es

/-- The table that the pairs of an inline table define. -/
def inlineTable? (pairs : List (List String × String × Toml)) : Option Toml := do
  let es ← pairs.foldl (fun (es : Option Entries) p =>
    es.bind (Entries.addValue · p.1 p.2.1 p.2.2)) (some [])
  return .table (entriesToToml es)

end ServerLink.Toml
