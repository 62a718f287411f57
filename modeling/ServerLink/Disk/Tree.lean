import ServerLink.Disk.Path
import ServerLink.Table

/-!
# Trees of files

A disk is a tree of directories, files and symbolic links. A place in the tree is the list of names
that lead there from the top, through directories alone.
-/

namespace ServerLink

/-- Who owns a file or directory, and what may be done with it: twelve bits, of which the lowest
nine allow its owner, its group and everybody else to read, write and search or run. The owner is
an ordinary user unless another is given. -/
structure Attributes where
  mode : Nat
  uid : Nat := 1000
  gid : Nat := 1000
deriving DecidableEq, Repr

inductive Node where
  | file (attributes : Attributes) (contents : List UInt8)
  | directory (attributes : Attributes) (entries : List (String × Node))
  | link (target : String)
deriving Inhabited

abbrev Place := List String

namespace Node

def isDirectory : Node → Bool
  | .directory _ _ => true
  | .file _ _ | .link _ => false

/-- A link has no attributes that count. -/
def attributes? : Node → Option Attributes
  | .file a _ | .directory a _ => some a
  | .link _ => none

def setAttributes (a : Attributes) : Node → Node
  | .file _ contents => .file a contents
  | .directory _ entries => .directory a entries
  | .link target => .link target

/-- The entries of a directory; anything else has none. -/
def entries : Node → List (String × Node)
  | .directory _ es => es
  | .file _ _ | .link _ => []

def child? (n : Node) (name : String) : Option Node := n.entries.lookup name

/-- What stands at a place. -/
def get? : Node → Place → Option Node
  | n, [] => some n
  | n, name :: names => (n.child? name).bind fun c => get? c names

/-- The entries with the one of a name changed; it may appear or go. -/
def setEntry (entries : List (String × Node)) (name : String) (new : Option Node) :
    List (String × Node) :=
  match new with
  | none => Table.erase entries name
  | some n =>
    if (entries.lookup name).isSome then
      entries.map fun e => if e.1 = name then (name, n) else e
    else entries ++ [(name, n)]

/-- The tree with what stands at a place changed; it may appear or go, except at the top. A place
in no directory stays as it is. -/
def alter (change : Option Node → Option Node) : Node → Place → Node
  | n, [] => (change (some n)).getD n
  | .directory a es, [name] => .directory a (setEntry es name (change (es.lookup name)))
  | .directory a es, name :: names =>
    match es.lookup name with
    | some c => .directory a (setEntry es name (some (alter change c names)))
    | none => .directory a es
  | .file a contents, _ :: _ => .file a contents
  | .link target, _ :: _ => .link target

end Node

end ServerLink
