import ServerLink.Files.Basic

/-!
# Operations on files that are left to another

A fallback leaves each operation on files to the service that was given with it. Without one, every
operation fails by its own name.
-/

namespace ServerLink

structure Fallback (σ : Type) where
  service? : Option (FileService σ) := none

namespace Fallback

variable {σ α : Type}

/-- Leaves operations to a service. -/
def ofService (service : FileService σ) : Fallback σ := { service? := some service }

/-- Fails every operation. -/
def nowhere : Fallback σ := {}

def isConfigured (f : Fallback σ) : Bool := f.service?.isSome

/-- The service, for an operation of this name. -/
def target (f : Fallback σ) (operation : String) : Except LinkError (FileService σ) :=
  match f.service? with
  | some service => .ok service
  | none => .error (.unsupported operation)

/-- Has the service do what an operation of this name is to do, if there is a service. -/
def leave (f : Fallback σ) (operation : String)
    (act : FileService σ → σ → Except LinkError α × σ) (s : σ) : Except LinkError α × σ :=
  match f.target operation with
  | .ok service => act service s
  | .error e => (.error e, s)

def write (f : Fallback σ) (path : String) (contents : List UInt8) (mode : Nat) :
    σ → Except LinkError Unit × σ :=
  f.leave "write_file" (·.write path contents mode)

def read (f : Fallback σ) (path : String) : σ → Except LinkError (List UInt8) × σ :=
  f.leave "read_file" (·.read path)

def delete (f : Fallback σ) (path : String) : σ → Except LinkError Unit × σ :=
  f.leave "delete_file" (·.delete path)

def removeAll (f : Fallback σ) (path : String) : σ → Except LinkError Unit × σ :=
  f.leave "remove_dir_all" (·.removeAll path)

def isThere (f : Fallback σ) (path : String) : σ → Except LinkError Bool × σ :=
  f.leave "exists" (·.isThere path)

def chown (f : Fallback σ) (path : String) (uid gid : Nat) : σ → Except LinkError Unit × σ :=
  f.leave "chown" (·.chown path uid gid)

def chmodAll (f : Fallback σ) (path : String) (mode : Nat) : σ → Except LinkError Unit × σ :=
  f.leave "chmod_recursive" (·.chmodAll path mode)

def mkdirAll (f : Fallback σ) (path : String) (mode : Nat) : σ → Except LinkError Unit × σ :=
  f.leave "mkdir_all" (·.mkdirAll path mode)

/-- A fallback serves operations on files itself. -/
def toService (f : Fallback σ) : FileService σ where
  write := f.write
  read := f.read
  delete := f.delete
  removeAll := f.removeAll
  isThere := f.isThere
  chown := f.chown
  chmodAll := f.chmodAll
  mkdirAll := f.mkdirAll

/-- The fallback in a log. -/
def describe (f : Fallback σ) : String :=
  "Fallback \x7b configured: " ++ (if f.isConfigured then "true" else "false") ++ " \x7d"

end Fallback

end ServerLink
