import ServerLink.Log.Filter
import ServerLink.Table

/-!
# Logging

How a program logs: from which level on, in which format, and with what on each line. One logger
may be installed in a process.
-/

namespace ServerLink.Log

inductive Format where
  /-- One line per event. -/
  | compact
  /-- Several lines per event. -/
  | pretty
  /-- A JSON document per event. -/
  | json
deriving DecidableEq, Repr

namespace Format

def name : Format → String
  | .compact => "compact"
  | .pretty => "pretty"
  | .json => "json"

def ofName? (text : String) : Option Format := [compact, pretty, json].find? (·.name = text)

end Format

structure Settings where
  /-- Counts if no filter is given and the environment has none. -/
  level : Level := .warn
  format : Format := .compact
  location : Bool := false
  target : Bool := false
  timestamp : Bool := false
  filter : Option String := none
deriving DecidableEq, Repr

namespace Settings

/-- All there is to say about each event. -/
def verbose : Settings := { level := .debug, location := true, target := true, timestamp := true }

/-- For events that another program reads. -/
def streaming : Settings := { level := .info, format := .json, target := true, timestamp := true }

end Settings

/-- Why no logger was installed. -/
inductive InstallError where
  | badFilter
  | alreadyInstalled
  /-- The filter cannot be taken apart. -/
  | offset (error : Text.OffsetError)
deriving DecidableEq, Repr

/-- The message of an error; none for one that the reader of filters words. -/
def InstallError.message? : InstallError → Option String
  | .badFilter => none
  | .alreadyInstalled => some ("failed to set global tracing subscriber: " ++
      "a global default trace dispatcher has already been set")
  | .offset e => some e.message

/-- The environment variable with the filter that counts if none is given. -/
def filterVariable : String := "RUST_LOG"

/-- Checks the filter that counts. A malformed one is ignored if it is the environment's. -/
def checkFilter (s : Settings) (environment : Table String String) : Except InstallError Unit :=
  match s.filter with
  | some f => (Filter.check f).mapError fun
    | .malformed => .badFilter
    | .offset e => .offset e
  | none =>
    match (environment.lookup filterVariable).map Filter.check with
    | some (.error (.offset e)) => .error (.offset e)
    | some (.error .malformed) | some (.ok ()) | none => .ok ()

/-- Installs a logger in a process that may have one. -/
def install (s : Settings) (environment : Table String String) (installed : Bool) :
    Except InstallError Unit := do
  checkFilter s environment
  if installed then .error .alreadyInstalled else return

end ServerLink.Log
