import ServerLink.Disk.Walk
import ServerLink.Text.Utf8

/-!
# Single operations on a disk

Each operation either fails and changes nothing or succeeds as a whole.
-/

namespace ServerLink

namespace Disk

/-- The bit that passes a directory's group on to what is made in it, and lets a file run for its
group. -/
def groupBit : Nat := 0o2000

/-- The bit that lets a file run as its owner. -/
def ownerBit : Nat := 0o4000

/-- A mode has all the bits of another. -/
def hasBits (mode bits : Nat) : Bool := mode &&& bits = bits

/-- A mode without some bits. -/
def withoutBits (mode bits : Nat) : Nat := mode - (mode &&& bits)

/-- The number that leaves an owner or group as it is. -/
def unchanged : Nat := 2 ^ 32 - 1

end Disk

namespace Process

open Disk

variable (p : Process)

/-- The attributes of what a process makes in a directory. -/
def madeIn (dir : Node) (mode : Nat) (isDirectory : Bool) : Attributes :=
  let mode := withoutBits mode p.mask
  match dir.attributes? with
  | some a =>
    if hasBits a.mode groupBit then
      { mode := if isDirectory then mode ||| groupBit else mode, uid := p.uid, gid := a.gid }
    else { mode, uid := p.uid, gid := p.gid }
  | none => { mode, uid := p.uid, gid := p.gid }

def owns (a : Attributes) : Bool := p.privileged || a.uid = p.uid

/-- What belongs to a group may have the group bit. -/
def keepsGroupBit (gid : Nat) : Bool := p.privileged || p.isMember gid

/-- The attributes of something whose mode is set: of the mode its twelve bits count, and the group
bit is withheld from what belongs to a group that the process is not in. -/
def granted (a : Attributes) (mode : Nat) : Attributes :=
  { a with mode :=
      if p.keepsGroupBit a.gid then mode % 0o10000 else withoutBits (mode % 0o10000) groupBit }

/-- Whether a process may give something to an owner and a group. What it owns it may give to itself
and to a group that it is in; a privileged one may give anything to anybody. -/
def mayGive (a : Attributes) (uid gid : Nat) : Bool :=
  p.privileged ||
    (uid = unchanged || a.uid = p.uid && uid = a.uid) &&
    (gid = unchanged || a.uid = p.uid && (gid = a.gid || p.isMember gid))

/-- The attributes of something that is given to an owner and a group. A file loses the bits that
would let it run as somebody else. -/
def given (a : Attributes) (isDirectory : Bool) (uid gid : Nat) : Attributes where
  mode :=
    if isDirectory then a.mode
    else
      let mode := withoutBits a.mode ownerBit
      if hasBits mode 0o10 || !p.keepsGroupBit a.gid then withoutBits mode groupBit else mode
  uid := if uid = unchanged then a.uid else uid
  gid := if gid = unchanged then a.gid else gid

end Process

namespace Disk

/-- The disk with what stands at a place changed. -/
def alter (d : Disk) (place : Place) (change : Option Node → Option Node) : Disk :=
  { d with root := d.root.alter change place }

def put (d : Disk) (place : Place) (n : Node) : Disk := d.alter place fun _ => some n

def erase (d : Disk) (place : Place) : Disk := d.alter place fun _ => none

/-- Fails if entries of a directory are not to be made or removed. -/
def checkEntries (d : Disk) (dir : Place) : Except SystemError Unit := do
  let n ← d.node dir
  d.check n .search
  d.check n .write

/-- What a path leads to. -/
def stat (d : Disk) (follow : Bool) (path : String) : Except SystemError Node :=
  d.find follow path >>= d.node

def isDirectory (d : Disk) (path : String) : Bool :=
  match d.stat true path with
  | .ok n => n.isDirectory
  | .error _ => false

/-- The contents of a file. -/
def read (d : Disk) (path : String) : Except SystemError (List UInt8) := do
  let n ← d.stat true path
  d.check n .read
  match n with
  | .file _ contents => .ok contents
  | .directory _ _ | .link _ => .error .isADirectory

/-- Makes an empty file, or empties the one that is there, and gives its place. -/
def createAt (d : Disk) : (fuel : Nat) → LastStep → Except SystemError (Place × Disk)
  | 0, _ => .error .filesystemLoop
  | fuel + 1, s =>
    match s.part? with
    | none | some .here | some .up => .error .isADirectory
    | some (.name n) =>
      if s.slash then .error .isADirectory
      else match d.child s.dir n with
        | .error e => .error e
        | .ok none => do
          d.checkEntries s.dir
          let a := d.process.madeIn (← d.node s.dir) 0o666 false
          return (s.dir ++ [n], d.put (s.dir ++ [n]) (.file a []))
        | .ok (some (.file a contents)) => do
          d.check (.file a contents) .write
          return (s.dir ++ [n], d.put (s.dir ++ [n]) (.file a []))
        | .ok (some (.directory _ _)) => .error .isADirectory
        | .ok (some (.link target)) => d.lastStepOfLink s target >>= createAt d fuel

/-- Replaces the contents of a file, which is made if it is not there. -/
def write (d : Disk) (path : String) (contents : List UInt8) : Except SystemError Disk := do
  let s ← d.start path
  let (place, d) ← d.createAt (maxLinks + 1) s
  return d.alter place fun
    | some (.file a _) => some (.file a contents)
    | other => other

/-- Removes anything but a directory. -/
def unlink (d : Disk) (path : String) : Except SystemError Disk := do
  let s ← d.start path
  match s.part? with
  | none | some .here | some .up => .error .isADirectory
  | some (.name n) =>
    match ← d.child s.dir n with
    | none => .error .notFound
    | some c =>
      if s.slash then .error (if c.isDirectory then .isADirectory else .notADirectory)
      else do
        d.checkEntries s.dir
        if c.isDirectory then .error .isADirectory else return d.erase (s.dir ++ [n])

/-- Removes an empty directory. -/
def removeDirectory (d : Disk) (path : String) : Except SystemError Disk := do
  let s ← d.start path
  match s.part? with
  | none => .error .busy
  | some .here => .error .invalidArgument
  | some .up => .error .directoryNotEmpty
  | some (.name n) =>
    match ← d.child s.dir n with
    | none => .error .notFound
    | some c => do
      d.checkEntries s.dir
      if !c.isDirectory then .error .notADirectory
      else if c.entries.isEmpty then return d.erase (s.dir ++ [n])
      else .error .directoryNotEmpty

/-- Makes a directory where nothing is. -/
def makeDirectory (d : Disk) (path : String) (mode : Nat) : Except SystemError Disk := do
  let s ← d.start path
  match s.part? with
  | none | some .here | some .up => .error .alreadyExists
  | some (.name n) =>
    match ← d.child s.dir n with
    | some _ => .error .alreadyExists
    | none => do
      d.checkEntries s.dir
      let a := d.process.madeIn (← d.node s.dir) (mode &&& 0o1777) true
      return d.put (s.dir ++ [n]) (.directory a [])

/-- Sets the mode of what a path leads to, as far as it is granted. Only its owner may. -/
def setMode (d : Disk) (path : String) (mode : Nat) : Except SystemError Disk := do
  let place ← d.find true path
  let n ← d.node place
  match n.attributes? with
  | none => .error .notFound
  | some a =>
    if d.process.owns a then return d.put place (n.setAttributes (d.process.granted a mode))
    else .error .notPermitted

/-- Sets the owner and group of what a path leads to. -/
def setOwner (d : Disk) (path : String) (uid gid : Nat) : Except SystemError Disk := do
  let place ← d.find true path
  let n ← d.node place
  match n.attributes? with
  | none => .error .notFound
  | some a =>
    if d.process.mayGive a uid gid then
      return d.put place (n.setAttributes (d.process.given a n.isDirectory uid gid))
    else .error .notPermitted

/-- Fails for a path that no disk has. -/
def checkText (path : String) : Except IoError Unit :=
  if path.contains '\x00' then .error (.invalidInput "file name contained an unexpected NUL byte")
  else .ok ()

/-- The contents of a file that holds a text. -/
def readText (d : Disk) (path : String) : Except IoError String := do
  checkText path
  match Text.decode? (← (d.read path).mapError .system) with
  | some text => .ok text
  | none => .error (.invalidData "stream did not contain valid UTF-8")

end Disk

end ServerLink
