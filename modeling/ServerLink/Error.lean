import ServerLink.Frame

/-!
# How an operation fails
-/

namespace ServerLink

instance decidableEqExcept {ε α : Type} [DecidableEq ε] [DecidableEq α] :
    DecidableEq (Except ε α)
  | .ok a, .ok b => decidable_of_iff (a = b) ⟨congrArg _, fun h => by cases h; rfl⟩
  | .error a, .error b => decidable_of_iff (a = b) ⟨congrArg _, fun h => by cases h; rfl⟩
  | .ok _, .error _ => .isFalse (by simp)
  | .error _, .ok _ => .isFalse (by simp)

/-- The errors of the operating system that operations on files and processes meet. -/
inductive SystemError where
  | notPermitted
  | notFound
  | accessDenied
  | busy
  | alreadyExists
  | notADirectory
  | isADirectory
  | invalidArgument
  | nameTooLong
  | directoryNotEmpty
  | filesystemLoop
  | networkUnreachable
  | connectionRefused
deriving DecidableEq, Repr

def SystemError.number : SystemError → Nat
  | .notPermitted => 1
  | .notFound => 2
  | .accessDenied => 13
  | .busy => 16
  | .alreadyExists => 17
  | .notADirectory => 20
  | .isADirectory => 21
  | .invalidArgument => 22
  | .nameTooLong => 36
  | .directoryNotEmpty => 39
  | .filesystemLoop => 40
  | .networkUnreachable => 101
  | .connectionRefused => 111

def SystemError.text : SystemError → String
  | .notPermitted => "Operation not permitted"
  | .notFound => "No such file or directory"
  | .accessDenied => "Permission denied"
  | .busy => "Device or resource busy"
  | .alreadyExists => "File exists"
  | .notADirectory => "Not a directory"
  | .isADirectory => "Is a directory"
  | .invalidArgument => "Invalid argument"
  | .nameTooLong => "File name too long"
  | .directoryNotEmpty => "Directory not empty"
  | .filesystemLoop => "Too many levels of symbolic links"
  | .networkUnreachable => "Network is unreachable"
  | .connectionRefused => "Connection refused"

/-- Why reading or writing failed. -/
inductive IoError where
  | system (error : SystemError)
  /-- A request that is refused before the system is asked. -/
  | invalidInput (reason : String)
  /-- Bytes that are not of the expected form. -/
  | invalidData (reason : String)
  | other (reason : String)
deriving DecidableEq

def IoError.message : IoError → String
  | .system e => e.text ++ " (os error " ++ toString e.number ++ ")"
  | .invalidInput reason | .invalidData reason | .other reason => reason

/-- How an operation on a server fails. -/
inductive LinkError where
  /-- The connection could not be made or has broken. -/
  | transport (reason : String)
  /-- The connection ended while the operation was under way. -/
  | closed (reason : String)
  /-- The server refused the login. -/
  | authentication (reason : String)
  /-- A message that is not what the protocol prescribes. -/
  | protocol (reason : String)
  /-- The server answered the call with an error. -/
  | rpc (error : RpcError)
  /-- The job that the call started failed. -/
  | job (error : Job.Failure)
  | unsupported (operation : String)
  | subscriptionRejected (collection : String)
  | cancelled
  | timeout (operation : String)
  | notConnected
  | alreadyConnected
  | config (reason : String)
  | io (error : IoError)
deriving DecidableEq

namespace LinkError

def message : LinkError → String
  | .transport reason => "transport error: " ++ reason
  | .closed reason => "connection closed: " ++ reason
  | .authentication reason => "authentication failed: " ++ reason
  | .protocol reason => "protocol error: " ++ reason
  | .rpc e => "RPC error " ++ e.describe
  | .job e => e.describe
  | .unsupported operation => "unsupported operation: " ++ operation
  | .subscriptionRejected collection => "subscription to " ++ collection ++ " rejected"
  | .cancelled => "operation cancelled"
  | .timeout operation => "timeout during " ++ operation
  | .notConnected => "not connected"
  | .alreadyConnected => "already connected"
  | .config reason => "configuration error: " ++ reason
  | .io e => "IO error: " ++ e.message

def isUnsupported : LinkError → Bool
  | .unsupported _ => true
  | _ => false

def isConnectionClosed : LinkError → Bool
  | .closed _ => true
  | _ => false

/-- The caller gave the operation up, or it took too long. -/
def isCancelled : LinkError → Bool
  | .cancelled | .timeout _ => true
  | _ => false

/-- The error ends the connection. -/
def isFatal : LinkError → Bool
  | .transport _ | .closed _ => true
  | _ => false

def ofFrameError (e : FrameError) : LinkError := .protocol e.message

end LinkError

end ServerLink
