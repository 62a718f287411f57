import ServerLink.Disk.Trees
import ServerLink.Files.Basic

/-!
# The files of this machine

`LocalFiles` serves file operations from a disk. With a root, every path leads into the root: an
absolute path starts there, and a path that leads up is refused.
-/

namespace ServerLink

/-- A service for the files of a disk; the root is the text of a path. -/
structure LocalFiles where
  root : Option String := none
deriving DecidableEq, Repr

namespace LocalFiles

/-- The text of the path that is really meant. -/
def resolve (l : LocalFiles) (path : String) : Except IoError String :=
  if (Path.ofText path).leadsUp then
    .error (.invalidInput ("path escapes its root: " ++ path))
  else
    match l.root with
    | none => .ok path
    | some root =>
      if path.startsWith "/" then .ok (Path.inside root (String.ofList (Path.trim path.toList)))
      else .ok (Path.join root path)

/-- Does something with what a path leads to, if the path can lead to anything. -/
def onPath {α : Type} (l : LocalFiles) (path : String) (act : String → Disk → Disk.After α)
    (d : Disk) : Except LinkError α × Disk :=
  match l.resolve path with
  | .error e => (.error (.io e), d)
  | .ok path =>
    match Disk.checkText path with
    | .error e => (.error (.io e), d)
    | .ok () =>
      let (outcome, d) := act path d
      (outcome.mapError fun e => .io (.system e), d)

/-- Replaces a file and sets its mode. A file whose mode is not to be set is left with what was
written. -/
def write (l : LocalFiles) (path : String) (contents : List UInt8) (mode : Nat) :
    Disk → Except LinkError Unit × Disk :=
  l.onPath path fun path d =>
    Disk.andThen (d.single (d.write path contents)) fun _ d => d.single (d.setMode path mode)

def read (l : LocalFiles) (path : String) : Disk → Except LinkError (List UInt8) × Disk :=
  l.onPath path fun path d => (d.read path, d)

def delete (l : LocalFiles) (path : String) : Disk → Except LinkError Unit × Disk :=
  l.onPath path fun path d => d.single (d.unlink path)

def removeAll (l : LocalFiles) (path : String) : Disk → Except LinkError Unit × Disk :=
  l.onPath path fun path d => d.removeAll path

/-- A path that leads nowhere is no failure. -/
def isThere (l : LocalFiles) (path : String) : Disk → Except LinkError Bool × Disk :=
  l.onPath path fun path d =>
    match d.stat true path with
    | .ok _ => (.ok true, d)
    | .error .notFound => (.ok false, d)
    | .error e => (.error e, d)

def chown (l : LocalFiles) (path : String) (uid gid : Nat) : Disk → Except LinkError Unit × Disk :=
  l.onPath path fun path d => d.single (d.setOwner path uid gid)

def chmodAll (l : LocalFiles) (path : String) (mode : Nat) : Disk → Except LinkError Unit × Disk :=
  l.onPath path fun path d => d.setModeAll path mode

def mkdirAll (l : LocalFiles) (path : String) (mode : Nat) : Disk → Except LinkError Unit × Disk :=
  l.onPath path fun path d => d.makeAll path mode

def service (l : LocalFiles) : FileService Disk where
  write := l.write
  read := l.read
  delete := l.delete
  removeAll := l.removeAll
  isThere := l.isThere
  chown := l.chown
  chmodAll := l.chmodAll
  mkdirAll := l.mkdirAll

def serve (l : LocalFiles) : FileRequest → Disk → Except LinkError FileReply × Disk :=
  l.service.perform

end LocalFiles

end ServerLink
