import ServerLink.Log.Settings
import ServerLink.Output
import ServerLink.Settings.Text

/-!
# The command line

What can be asked for on the command line: one command, and options that override settings.
-/

namespace ServerLink.CommandLine

/-- What to do with the settings. -/
inductive SettingsAction where
  | dump
  | validate
  /-- Say where they are. -/
  | path
deriving DecidableEq, Repr

def SettingsAction.name : SettingsAction → String
  | .dump => "dump"
  | .validate => "validate"
  | .path => "path"

inductive Command where
  /-- Call a method and print its result. -/
  | call (method : String) (params : Option String)
  /-- Call a method that starts a job, and print the job's result. -/
  | job (method : String) (params : Option String)
  /-- Print the events of a collection, all or some. -/
  | subscribe (collection : String) (filter : Option String) (count : Option Nat)
  /-- Print the server's version. -/
  | version
  /-- See whether the server answers. -/
  | ping
  | settings (action : SettingsAction)
deriving DecidableEq, Repr

def Command.name : Command → String
  | .call _ _ => "call"
  | .job _ _ => "job"
  | .subscribe _ _ _ => "subscribe"
  | .version => "version"
  | .ping => "ping"
  | .settings _ => "config"

structure Arguments where
  /-- The file with the settings. -/
  config : Option String := none
  debug : Bool := false
  jsonLogs : Bool := false
  host : Option String := none
  port : Option Nat := none
  username : Option String := none
  apiKey : Option String := none
  noTls : Bool := false
  insecure : Bool := false
  /-- Seconds to wait for the answer to a call. -/
  timeout : Option Nat := none
  command : Command
deriving DecidableEq, Repr

/-- Why a command fails. -/
inductive CommandError where
  | link (error : LinkError)
  | settings (error : SettingsError)
  /-- An argument that should be JSON is not. -/
  | badJson (what : String)
  /-- Writing failed. -/
  | io (error : IoError)
  /-- The version of a server that no connection has been made to. -/
  | noVersion
  /-- The filter for log lines cannot be taken apart. -/
  | logFilter (error : Text.OffsetError)
deriving DecidableEq

/-- The message of an error. For a text that another format's reader refuses it is what comes
before that reader's own words. -/
def CommandError.message : CommandError → String
  | .link e => e.message
  | .settings .malformed => "failed to parse config:"
  | .settings .unwritable => "failed to serialize config: out-of-range value for u64 type"
  | .settings e => e.message?.getD ""
  | .badJson what => "invalid JSON for " ++ what ++ ":"
  | .io e => "IO error: " ++ e.message
  | .noVersion => "server version read before a successful connect"
  | .logFilter e => e.message

/-- The program breaks off instead of ending with the error. -/
def CommandError.breaksOff : CommandError → Bool
  | .noVersion | .logFilter _ | .settings (.unprinted _) => true
  | _ => false

namespace Arguments

/-- The settings with what the arguments say instead. -/
def override (a : Arguments) (s : Settings) : Settings :=
  { s with
    host := a.host.getD s.host
    port := a.port <|> s.port
    username := a.username <|> s.username
    apiKey := a.apiKey <|> s.apiKey
    useTls := s.useTls && !a.noTls
    insecure := s.insecure || a.insecure
    requestTimeout := a.timeout.getD s.requestTimeout }

/-- The settings that the arguments stand for. A file that is named has to be there; without one,
settings that cannot be read are as good as none. -/
def settings (a : Arguments) (h : Host) : Except CommandError Settings := do
  let found ← match a.config with
    | some path => (Settings.load h path).mapError .settings
    | none => match Settings.loadDefault h with
      | .ok s => .ok s
      | .error _ => .ok {}
  return a.override found

/-- How the program logs. -/
def log (a : Arguments) : Log.Settings :=
  if a.jsonLogs then .streaming else if a.debug then .verbose else {}

end Arguments

end ServerLink.CommandLine
