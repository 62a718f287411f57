import ServerLink.Disk.Basic

/-!
# Operations on whole trees

These are made of single operations, and one that fails leaves what was done before it. So each
gives the disk as it is afterwards beside its outcome.
-/

namespace ServerLink.Disk

/-- An outcome and the disk afterwards. -/
abbrev After (α : Type) := Except SystemError α × Disk

/-- A single operation: a failed one changes nothing. -/
def single (d : Disk) (outcome : Except SystemError Disk) : After Unit :=
  match outcome with
  | .ok d => (.ok (), d)
  | .error e => (.error e, d)

/-- The second operation follows if the first one succeeds. -/
def andThen {α β : Type} (first : After α) (second : α → Disk → After β) : After β :=
  match first with
  | (.ok a, d) => second a d
  | (.error e, d) => (.error e, d)

/-- Makes a directory and the ones above it that are missing. `depth` bounds how many. -/
def makeDirectories (mode : Nat) : (depth : Nat) → String → Disk → After Unit
  | 0, _, d => (.error .notFound, d)
  | depth + 1, path, d =>
    if path.isEmpty then (.ok (), d)
    else match d.makeDirectory path mode with
      | .ok d => (.ok (), d)
      | .error .notFound =>
        match Path.parent? path with
        | none => (.error .notFound, d)
        | some parent =>
          andThen (makeDirectories mode depth parent d) fun _ d =>
            match d.makeDirectory path mode with
            | .ok d => (.ok (), d)
            | .error e => if d.isDirectory path then (.ok (), d) else (.error e, d)
      | .error e => if d.isDirectory path then (.ok (), d) else (.error e, d)

/-- Makes a directory and the ones above it that are missing; each shortens the path. -/
def makeAll (d : Disk) (path : String) (mode : Nat) : After Unit :=
  makeDirectories mode (path.length + 1) path d

/-- An operation that may find its work done: what is not there any more need not be removed. -/
def unlessGone (result : After Unit) : After Unit :=
  match result with
  | (.error .notFound, d) => (.ok (), d)
  | other => other

/-- Removes an entry of a directory. -/
def removeEntry (d : Disk) (dir : Place) (name : String) : Except SystemError Disk :=
  (d.checkEntries dir).map fun _ => d.erase (dir ++ [name])

mutual

/-- Removes an entry of a directory and everything below it, entries before their directory. What
is to be listed has to be found and to allow reading it. -/
def removeNode (dir : Place) (name : String) (n : Node) (d : Disk) : After Unit :=
  match n with
  | .file _ _ | .link _ => d.single (d.removeEntry dir name)
  | .directory a es =>
    match d.node dir >>= (d.check · .search), d.check (.directory a es) .read with
    | .error e, _ => (.error e, d)
    | _, .error e => (.error e, d)
    | .ok (), .ok () =>
      andThen (removeEntries (dir ++ [name]) es d) fun _ d => d.single (d.removeEntry dir name)

/-- Removes the entries of a directory with everything below them. -/
def removeEntries (dir : Place) (es : List (String × Node)) (d : Disk) : After Unit :=
  match es with
  | [] => (.ok (), d)
  | (name, n) :: es =>
    andThen (removeNode dir name n d) fun _ d => removeEntries dir es d

end

/-- Removes a directory and everything below it. Of a link nothing but the link goes. A path with a
link in it that was below the directory leads nowhere in the end, and the directory stays. -/
def removeAll (d : Disk) (path : String) : After Unit :=
  match d.find false path with
  | .error e => (.error e, d)
  | .ok place =>
    match d.node place with
    | .error e => (.error e, d)
    | .ok (.link _) => d.single (d.unlink path)
    | .ok (.file _ _) => (.error .notADirectory, d)
    | .ok (.directory a es) =>
      match d.check (.directory a es) .read with
      | .error e => (.error e, d)
      | .ok () =>
        andThen (removeEntries place es d) fun _ d => unlessGone (d.single (d.removeDirectory path))

mutual

/-- Sets the mode of what a path leads to, `n`, and of everything below it, a directory before its
entries. Links stay as they are. -/
def setModeOf (mode : Nat) (path : String) (n : Node) (d : Disk) : After Unit :=
  match d.find false path with
  | .error e => (.error e, d)
  | .ok _ =>
    match n with
    | .link _ => (.ok (), d)
    | .file _ _ => d.single (d.setMode path mode)
    | .directory _ es =>
      andThen (d.single (d.setMode path mode)) fun _ d =>
        match d.stat true path >>= (d.check · .read) with
        | .error e => (.error e, d)
        | .ok () => setModeOfEntries mode path es d

/-- Sets the mode of the entries of a directory and of everything below them. -/
def setModeOfEntries (mode : Nat) (path : String) (es : List (String × Node)) (d : Disk) :
    After Unit :=
  match es with
  | [] => (.ok (), d)
  | (name, n) :: es =>
    andThen (setModeOf mode (Path.inside path name) n d) fun _ d => setModeOfEntries mode path es d

end

/-- Sets the mode of what a path leads to and of everything below it. -/
def setModeAll (d : Disk) (path : String) (mode : Nat) : After Unit :=
  match d.stat false path with
  | .error e => (.error e, d)
  | .ok n => setModeOf mode path n d

/-! ## Looking at trees -/

mutual

/-- Everything below something at a place, if the process may see all of it. -/
def below (d : Disk) (place : Place) (n : Node) : Except SystemError (List (Place × Node)) :=
  match n with
  | .file _ _ | .link _ => .ok []
  | .directory a es => do
    d.check (.directory a es) .read
    belowEntries d place (.directory a []) es

/-- The entries of a directory, and everything below them. -/
def belowEntries (d : Disk) (place : Place) (dir : Node) (es : List (String × Node)) :
    Except SystemError (List (Place × Node)) :=
  match es with
  | [] => .ok []
  | (name, n) :: es => do
    d.check dir .search
    return (place ++ [name], n) :: (← below d (place ++ [name]) n) ++ (← belowEntries d place dir es)

end

/-- Everything below the directory that a path leads to, in the order of its places. -/
def list (d : Disk) (path : String) : Except SystemError (List (Place × Node)) := do
  return (← d.below [] (← d.stat true path)).mergeSort fun a b => ¬ b.1 < a.1

/-! ## Making trees -/

/-- The disk with the directories above a path made. -/
def withParents (d : Disk) (path : String) : Disk :=
  match Path.parent? path with
  | some parent => (d.makeAll parent 0o777).2
  | none => d

/-- The disk with a directory and the ones above it. -/
def withDirectory (d : Disk) (path : String) : Disk := (d.makeAll path 0o777).2

/-- The disk with a file and the directories above it. -/
def withFile (d : Disk) (path : String) (contents : List UInt8) : Disk :=
  match (d.withParents path).write path contents with
  | .ok d => d
  | .error _ => d.withParents path

/-- Makes a symbolic link where nothing is. -/
def makeLink (d : Disk) (path target : String) : Except SystemError Disk := do
  let s ← d.start path
  match s.part? with
  | none | some .here | some .up => .error .alreadyExists
  | some (.name n) =>
    match ← d.child s.dir n with
    | some _ => .error .alreadyExists
    | none =>
      if s.slash then .error .notFound
      else do
        d.checkEntries s.dir
        return d.put (s.dir ++ [n]) (.link target)

/-- The disk with a symbolic link and the directories above it. -/
def withLink (d : Disk) (path target : String) : Disk :=
  match (d.withParents path).makeLink path target with
  | .ok d => d
  | .error _ => d.withParents path

/-- A disk of a process with one directory, which is its working directory. -/
def ofDirectory (process : Process) (name : String) : Disk :=
  let a : Attributes := { mode := 0o755, uid := process.uid, gid := process.gid }
  { root := .directory a [(name, .directory a [])], directory := [name], process }

end ServerLink.Disk
