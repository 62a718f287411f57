import ServerLink.Error
import ServerLink.Secret
import ServerLink.Text.Quoted

/-!
# Settings of a client

What a client is told before it connects: where the server is, who logs in, and how long to wait.
Waiting times are whole seconds, and zero switches one off.
-/

namespace ServerLink

/-- The ways to reach a server. -/
inductive Route where
  | websocket
  /-- Files only, by a service that is given. -/
  | filesystem
  /-- None: every call is refused. -/
  | unsupported
deriving DecidableEq, Repr

namespace Route

def name : Route → String
  | .websocket => "websocket"
  | .filesystem => "filesystem"
  | .unsupported => "unsupported"

def ofName? (text : String) : Option Route :=
  [websocket, filesystem, unsupported].find? (·.name = text)

end Route

structure Settings where
  host : String := ""
  port : Option Nat := none
  path : String := "/api/current"
  useTls : Bool := true
  username : Option String := none
  apiKey : Option String := none
  /-- Seconds between liveness probes. -/
  pingInterval : Nat := 30
  /-- Seconds to wait for the answer to a call. -/
  requestTimeout : Nat := 60
  /-- Seconds to wait for the connection and the login. -/
  connectTimeout : Nat := 10
  /-- How many unread events a subscription keeps. -/
  capacity : Nat := 64
  /-- Any certificate will do. -/
  insecure : Bool := false
  route : Route := .websocket
deriving DecidableEq, Repr

/-- Why settings are of no use. -/
inductive SettingsError where
  | unreadable (path : String) (error : IoError)
  /-- The text of the settings is malformed. -/
  | malformed
  /-- A number is too large for the text of settings. -/
  | unwritable
  /-- The printer of a text gave up on it. -/
  | unprinted (message : String)
  | noHost
  | noCredential (field : String)
  | secret (field : String) (error : SecretError)
  | invalid (field : String) (reason : String)
deriving DecidableEq

/-- The message of an error; none for one that another format's reader or printer words. -/
def SettingsError.message? : SettingsError → Option String
  | .unreadable path e => some ("failed to read " ++ path ++ ": " ++ e.message)
  | .malformed | .unwritable => none
  | .unprinted message => some message
  | .noHost => some "host must not be empty"
  | .noCredential field => some (field ++ " is not configured")
  | .secret field e => some ("failed to resolve " ++ field ++ ": " ++ e.message)
  | .invalid field reason => some ("invalid " ++ field ++ ": " ++ reason)

/-- The error as the operation reports it that needed the settings. -/
def LinkError.ofSettings (e : SettingsError) : LinkError := .config (e.message?.getD "")

/-- Who logs in. -/
structure Credentials where
  username : String
  apiKey : String
deriving DecidableEq

/-- The credentials as they may be shown: without the key. -/
def Credentials.describe (c : Credentials) : String :=
  "Credentials \x7b username: " ++ Text.quoted c.username ++ ", api_key: \"<redacted>\" \x7d"

/-- A time span: seconds below 2 ^ 64, and billionths of a second. -/
structure Span where
  seconds : Nat
  nanos : Nat := 0
  seconds_lt : seconds < 2 ^ 64 := by omega
  nanos_lt : nanos < 10 ^ 9 := by omega
deriving DecidableEq

namespace Span

/-- Seconds and billionths, of which those beyond a second are carried; none if that is too long. -/
def ofParts? (seconds nanos : Nat) : Option Span :=
  let carried := seconds + nanos / 10 ^ 9
  if h : carried < 2 ^ 64 then some ⟨carried, nanos % 10 ^ 9, h, Nat.mod_lt _ (by decide)⟩ else none

/-- The span is no time at all. -/
def isZero (s : Span) : Bool := s.seconds = 0 && s.nanos = 0

/-- The span in whole seconds, any fraction counted as a whole one; none if that is no number of 64
bits. -/
def wholeSeconds? (s : Span) : Option Nat :=
  let n := s.seconds + if 0 < s.nanos then 1 else 0
  if n < 2 ^ 64 then some n else none

end Span

namespace Settings

def withPingInterval (s : Settings) (span : Span) : Option Settings :=
  span.wholeSeconds?.map fun n => { s with pingInterval := n }

def withRequestTimeout (s : Settings) (span : Span) : Option Settings :=
  span.wholeSeconds?.map fun n => { s with requestTimeout := n }

def withConnectTimeout (s : Settings) (span : Span) : Option Settings :=
  span.wholeSeconds?.map fun n => { s with connectTimeout := n }

/-- The port, or the usual one. -/
def effectivePort (s : Settings) : Nat := s.port.getD (if s.useTls then 443 else 80)

/-- Where the server is. -/
def url (s : Settings) : String :=
  (if s.useTls then "wss" else "ws") ++ "://" ++ s.host ++ ":" ++ toString s.effectivePort ++
    (if s.path.startsWith "/" then s.path else "/" ++ s.path)

/-- A number of seconds, of which zero means none. -/
def unlessZero (seconds : Nat) : Option Nat := if seconds = 0 then none else some seconds

def pingEvery? (s : Settings) : Option Nat := unlessZero s.pingInterval

def answerWithin? (s : Settings) : Option Nat := unlessZero s.requestTimeout

/-- The seconds for connecting, which are never zero. -/
def connectWithin (s : Settings) : Nat := (unlessZero s.connectTimeout).getD 10

/-- Finds the user and the key. -/
def credentials (s : Settings) (h : Host) : Except SettingsError Credentials :=
  match s.username, s.apiKey with
  | none, _ => .error (.noCredential "username")
  | some _, none => .error (.noCredential "api_key")
  | some username, some apiKey => do
    let username ← (Secret.resolve h username).mapError (.secret "username")
    let apiKey ← (Secret.resolve h apiKey).mapError (.secret "api_key")
    return { username, apiKey }

/-- Fails for settings that no connection can be made with. -/
def validate (s : Settings) : Except SettingsError Unit :=
  if s.route = .websocket ∧ Text.allBlank s.host then .error .noHost
  else if s.capacity = 0 then
    .error (.invalid "subscription_capacity" "must be greater than zero")
  else if s.port = some 0 then .error (.invalid "port" "must not be zero")
  else .ok ()

end Settings

end ServerLink
