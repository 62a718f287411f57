import ServerLink.Error

/-!
# File operations

What can be asked of a service for files, whoever serves it. A service has a state of its own; each
request gives an outcome and the state afterwards.
-/

namespace ServerLink

/-- A request for an operation on files. -/
inductive FileRequest where
  /-- Makes or replaces a file with this mode. -/
  | write (path : String) (contents : List UInt8) (mode : Nat)
  | read (path : String)
  /-- Removes a file. -/
  | delete (path : String)
  /-- Removes a directory and everything below it. -/
  | removeAll (path : String)
  | exists (path : String)
  | chown (path : String) (uid gid : Nat)
  /-- Sets the mode of everything from a path downwards. -/
  | chmodAll (path : String) (mode : Nat)
  /-- Makes a directory and the ones above it that are missing. -/
  | mkdirAll (path : String) (mode : Nat)
deriving DecidableEq

namespace FileRequest

/-- The name of the operation. -/
def operation : FileRequest → String
  | .write _ _ _ => "write_file"
  | .read _ => "read_file"
  | .delete _ => "delete_file"
  | .removeAll _ => "remove_dir_all"
  | .exists _ => "exists"
  | .chown _ _ _ => "chown"
  | .chmodAll _ _ => "chmod_recursive"
  | .mkdirAll _ _ => "mkdir_all"

def path : FileRequest → String
  | .write p _ _ | .read p | .delete p | .removeAll p | .exists p | .chown p _ _ | .chmodAll p _
  | .mkdirAll p _ => p

end FileRequest

/-- What an operation on files gives when it succeeds. -/
inductive FileReply where
  | done
  | contents (bytes : List UInt8)
  | found (yes : Bool)
deriving DecidableEq

/-- Serves operations on files, with a state of its own: each operation gives its outcome and the
state afterwards. -/
structure FileService (σ : Type) where
  write (path : String) (contents : List UInt8) (mode : Nat) : σ → Except LinkError Unit × σ
  read (path : String) : σ → Except LinkError (List UInt8) × σ
  delete (path : String) : σ → Except LinkError Unit × σ
  removeAll (path : String) : σ → Except LinkError Unit × σ
  isThere (path : String) : σ → Except LinkError Bool × σ
  chown (path : String) (uid gid : Nat) : σ → Except LinkError Unit × σ
  chmodAll (path : String) (mode : Nat) : σ → Except LinkError Unit × σ
  mkdirAll (path : String) (mode : Nat) : σ → Except LinkError Unit × σ

namespace FileService

variable {σ : Type}

/-- What an operation gives, as a reply. -/
def replied {α : Type} (reply : α → FileReply) (given : Except LinkError α × σ) :
    Except LinkError FileReply × σ :=
  (given.1.map reply, given.2)

/-- Performs the operation that a request is for. -/
def perform (service : FileService σ) (request : FileRequest) (s : σ) :
    Except LinkError FileReply × σ :=
  match request with
  | .write path contents mode => replied (fun _ => .done) (service.write path contents mode s)
  | .read path => replied .contents (service.read path s)
  | .delete path => replied (fun _ => .done) (service.delete path s)
  | .removeAll path => replied (fun _ => .done) (service.removeAll path s)
  | .exists path => replied .found (service.isThere path s)
  | .chown path uid gid => replied (fun _ => .done) (service.chown path uid gid s)
  | .chmodAll path mode => replied (fun _ => .done) (service.chmodAll path mode s)
  | .mkdirAll path mode => replied (fun _ => .done) (service.mkdirAll path mode s)

end FileService

end ServerLink
