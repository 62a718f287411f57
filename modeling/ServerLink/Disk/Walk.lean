import ServerLink.Disk.Tree
import ServerLink.Error

/-!
# Following paths

A path is followed part by part from the top or from the working directory. Each directory that is
passed has to allow searching it, and symbolic links on the way are followed, forty at most.
-/

namespace ServerLink

/-- What a process may want to do with a file or directory. -/
inductive Access where
  | read
  | write
  | search
deriving DecidableEq, Repr

def Access.bit : Access → Nat
  | .read => 4
  | .write => 2
  | .search => 1

/-- Who works on a disk: an ordinary user unless another is given. Its number alone gives a process
no rights but those of an owner, so one with the number 0 is as restricted as any other unless it is
privileged. -/
structure Process where
  uid : Nat := 1000
  gid : Nat := 1000
  /-- The groups that it is in beside its own. -/
  groups : List Nat := []
  /-- What modes and owners forbid to others it may do. -/
  privileged : Bool := false
  /-- The permission bits that new files and directories do not get. -/
  mask : Nat := 0o022

namespace Process

def isMember (p : Process) (gid : Nat) : Bool := gid = p.gid || gid ∈ p.groups

/-- The three bits that hold for a process. -/
def bitsFor (p : Process) (a : Attributes) : Nat :=
  if a.uid = p.uid then a.mode / 64 % 8
  else if p.isMember a.gid then a.mode / 8 % 8
  else a.mode % 8

def allows (p : Process) (a : Attributes) (access : Access) : Bool :=
  p.privileged || p.bitsFor a / access.bit % 2 = 1

end Process

/-- A tree as one process sees it. -/
structure Disk where
  root : Node
  /-- The working directory. -/
  directory : Place := []
  process : Process := {}

namespace Disk

/-- How many symbolic links one path may lead through. -/
def maxLinks : Nat := 40

/-- The most bytes in a name. -/
def maxName : Nat := 255

/-- The number of bytes that a path stays below. -/
def maxPath : Nat := 4096

/-- Fails if something is not to be accessed so. -/
def check (d : Disk) (n : Node) (access : Access) : Except SystemError Unit :=
  match n.attributes? with
  | some a => if d.process.allows a access then .ok () else .error .accessDenied
  | none => .ok ()

def get? (d : Disk) (place : Place) : Option Node := d.root.get? place

/-- What stands at a place that has been found. -/
def node (d : Disk) (place : Place) : Except SystemError Node :=
  match d.get? place with
  | some n => .ok n
  | none => .error .notFound

/-- What a directory has under a name. -/
def child (d : Disk) (dir : Place) (name : String) : Except SystemError (Option Node) :=
  if maxName < name.utf8ByteSize then .error .nameTooLong
  else (d.node dir).map (·.child? name)

/-- The last step of a path: from a directory, a part, with a slash behind it or not. A path
without a part leads to the top. `links` counts the links that may still be followed. -/
structure LastStep where
  dir : Place
  part? : Option Path.Part
  slash : Bool
  links : Nat

/-- Follows a path up to its last part. -/
def lastStep (d : Disk) (links : Nat) (dir : Place) (parts : List Path.Part) (slash : Bool) :
    Except SystemError LastStep :=
  match parts with
  | [] => .ok ⟨[], none, slash, links⟩
  | [p] => do
    d.check (← d.node dir) .search
    return ⟨dir, some p, slash, links⟩
  | p :: q :: ps =>
    match d.node dir >>= (d.check · .search) with
    | .error e => .error e
    | .ok () =>
      match p with
      | .here => lastStep d links dir (q :: ps) slash
      | .up => lastStep d links dir.dropLast (q :: ps) slash
      | .name n =>
        match d.child dir n with
        | .error e => .error e
        | .ok none => .error .notFound
        | .ok (some (.file _ _)) => .error .notADirectory
        | .ok (some (.directory _ _)) => lastStep d links (dir ++ [n]) (q :: ps) slash
        | .ok (some (.link target)) =>
          match links with
          | 0 => .error .filesystemLoop
          | links + 1 =>
            let t := Path.ofText target
            lastStep d links (if t.absolute then [] else dir) (t.parts ++ q :: ps) slash
termination_by (links, parts.length)

/-- Follows a link's target up to its last part. -/
def lastStepOfLink (d : Disk) (s : LastStep) (target : String) : Except SystemError LastStep :=
  match s.links with
  | 0 => .error .filesystemLoop
  | links + 1 =>
    let t := Path.ofText target
    lastStep d links (if t.absolute then [] else s.dir) t.parts (s.slash || t.trailingSlash)

/-- Fails for what is no directory if a slash follows it. -/
def checkSlash (s : LastStep) (n : Node) : Except SystemError Unit :=
  if s.slash && !n.isDirectory then .error .notADirectory else .ok ()

/-- The place a last step leads to, if anything stands there. A link there is followed if `follow`
says so or a slash is behind it; `fuel` exceeds the number of links left. -/
def arrive (d : Disk) (follow : Bool) : (fuel : Nat) → LastStep → Except SystemError Place
  | 0, _ => .error .filesystemLoop
  | fuel + 1, s =>
    match s.part? with
    | none => .ok []
    | some .here => .ok s.dir
    | some .up => .ok s.dir.dropLast
    | some (.name n) =>
      match d.child s.dir n with
      | .error e => .error e
      | .ok none => .error .notFound
      | .ok (some (.link target)) =>
        if follow || s.slash then d.lastStepOfLink s target >>= arrive d follow fuel
        else .ok (s.dir ++ [n])
      | .ok (some c) => (checkSlash s c).map fun _ => s.dir ++ [n]

/-- The last step of a path given as a text. -/
def start (d : Disk) (path : String) : Except SystemError LastStep :=
  if path.isEmpty then .error .notFound
  else if maxPath ≤ path.utf8ByteSize then .error .nameTooLong
  else
    let p := Path.ofText path
    d.lastStep maxLinks (if p.absolute then [] else d.directory) p.parts p.trailingSlash

/-- The place that a path leads to. -/
def find (d : Disk) (follow : Bool) (path : String) : Except SystemError Place :=
  d.start path >>= d.arrive follow (maxLinks + 1)

end Disk

end ServerLink
