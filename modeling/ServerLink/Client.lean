import ServerLink.Files.Fallback
import ServerLink.Link.Task
import ServerLink.Settings.Url

/-!
# A client

A client connects once: it finds its credentials, opens a socket, logs in and reads the server's
version. Until then it has no connection, and afterwards it keeps the one it has, also when that
has ended. An attempt to connect that fails closes what it has opened and lets the next one try.
-/

namespace ServerLink

/-- How the attempt to open a socket ends. -/
inductive Opening where
  | opened
  | failed (reason : String)
  | timedOut
deriving DecidableEq, Repr

/-- How far an attempt to connect has got. Its tasks on the connection bear its own number. -/
inductive Attempt.Stage where
  | opening (credentials : Credentials)
  | greeting (link : Link)
  /-- Closes the connection, having failed. -/
  | closing (link : Link) (reason : LinkError)
deriving DecidableEq

structure Attempt where
  task : Nat
  stage : Attempt.Stage
deriving DecidableEq

structure Client where
  settings : Settings
  /-- An attempt to connect has begun, and has not failed. -/
  connecting : Bool := false
  attempt : Option Attempt := none
  link : Option Link := none
  version : Option Version := none
  /-- What the tasks have given that were no tasks of the connection. -/
  results : Table Nat Result := []
deriving DecidableEq

namespace Client

/-- The connection is up. -/
def isConnected (c : Client) : Bool := c.link.any (·.isOpen)

/-- Why the connection has ended, once it has. -/
def closeReason (c : Client) : Option LinkError := c.link.bind (·.calls.closed)

/-- What a task has given. -/
def result? (c : Client) (task : Nat) : Option Result :=
  match c.results.lookup task with
  | some r => some r
  | none => c.link.bind (·.results.lookup task)

def finish (c : Client) (task : Nat) (r : Result) : Client :=
  { c with results := Table.insert c.results task r }

/-- An attempt to connect fails before it has opened anything, or after it has closed it. -/
def failAttempt (c : Client) (task : Nat) (e : LinkError) : Client :=
  ({ c with connecting := false, attempt := none }).finish task (.error e)

/-- Goes on with an attempt that closes its connection. -/
def continueClosing (c : Client) (task : Nat) (l : Link) (reason : LinkError) : Client :=
  match l.results.lookup task with
  | some _ => c.failAttempt task reason
  | none => { c with attempt := some ⟨task, .closing l reason⟩ }

/-- An attempt has opened a connection and fails: it closes it first. -/
def closeAttempt (c : Client) (task : Nat) (l : Link) (reason : LinkError) : Client :=
  let l := { l with results := Table.erase l.results task }
  c.continueClosing task (l.startClose task) reason

/-- Goes on with an attempt whose connection is open, which has succeeded when the server's version
is known. -/
def continueGreeting (c : Client) (task : Nat) (l : Link) : Client :=
  match l.results.lookup task with
  | none => { c with attempt := some ⟨task, .greeting l⟩ }
  | some (.error e) => c.closeAttempt task l e
  | some (.ok (.version v)) =>
    let l := { l with results := Table.erase l.results task }
    ({ c with attempt := none, version := some v, link := some (l.step .startProbe) }).finish task
      (.ok .done)
  | some (.ok _) => { c with attempt := some ⟨task, .greeting l⟩ }

/-- Why no socket was opened. -/
def unopened (c : Client) (reason : String) : LinkError :=
  .transport ("failed to connect to " ++ c.settings.url ++ ": " ++ reason)

/-- Begins an attempt to connect. `credentials` are what the settings' references lead to. -/
def connect (c : Client) (task : Nat) (credentials : Except SettingsError Credentials) : Client :=
  if c.connecting then c.finish task (.error .alreadyConnected)
  else match c.settings.validate >>= fun _ => credentials with
    | .error e => c.finish task (.error (.ofSettings e))
    | .ok found =>
      match Url.check c.settings.url with
      | .error fault => c.finish task (.error (c.unopened fault.message))
      | .ok () => { c with connecting := true, attempt := some ⟨task, .opening found⟩ }

/-- Goes on with an attempt when its socket is open or could not be opened. -/
def opened (c : Client) (task : Nat) (credentials : Credentials) : Opening → Client
  | .opened =>
    c.continueGreeting task ((Link.ofSettings c.settings).startHandshake task credentials)
  | .failed reason => c.failAttempt task (c.unopened reason)
  | .timedOut => c.failAttempt task (.timeout ("connecting to " ++ c.settings.url))

/-- What the connection, or the one of an attempt, does by itself. What a caller asks of it comes
by `start` alone. -/
def isOfLink : Link.Event → Bool
  | .start _ _ | .handshake _ _ | .startProbe | .teardown _ => false
  | .resume _ _ _ | .drop _ | .fire _ | .subscriber _ _ | .receive _ | .stopReading
  | .resumeReader _ | .tick | .resumeProbe _ _ | .probeLate => true

/-- Starts what a caller asks for. Without a connection there is nothing to close, and nothing else
can be done. -/
def start (c : Client) (task : Nat) (o : Operation) : Client :=
  match c.link with
  | some l => { c with link := some (l.step (.start task o)) }
  | none => c.finish task (if o = .close then .ok .done else .error .notConnected)

/-- What can happen to a client. -/
inductive Event where
  | connect (task : Nat) (credentials : Except SettingsError Credentials)
  /-- The socket of an attempt is open or could not be opened. -/
  | opened (opening : Opening)
  /-- The time for the handshake is over. -/
  | handshakeLate
  /-- The caller no longer waits for the attempt to connect. -/
  | dropAttempt
  | start (task : Nat) (operation : Operation)
  | link (event : Link.Event)
  /-- The client itself is given up. -/
  | dropClient
deriving DecidableEq

def step (c : Client) : Event → Client
  | .connect task credentials => c.connect task credentials
  | .opened opening =>
    match c.attempt with
    | some ⟨task, .opening credentials⟩ => c.opened task credentials opening
    | _ => c
  | .handshakeLate =>
    match c.attempt with
    | some ⟨task, .greeting l⟩ =>
      c.closeAttempt task (l.step (.drop task)) (.timeout "login handshake")
    | _ => c
  | .dropAttempt => { c with attempt := none }
  | .start task o => c.start task o
  | .link e =>
    if isOfLink e then
      match c.attempt, c.link with
      | some ⟨task, .greeting l⟩, _ => c.continueGreeting task (l.step e)
      | some ⟨task, .closing l reason⟩, _ => c.continueClosing task (l.step e) reason
      | _, some l => { c with link := some (l.step e) }
      | _, none => c
    else c
  | .dropClient => { c with link := c.link.map (·.teardown (.closed "client dropped")) }

def run (c : Client) (events : List Event) : Client := events.foldl step c

/-- A client that has not connected. -/
def ofSettings (settings : Settings) : Client := { settings }

/-- The client in a log, with what its operations on files are left to. -/
def describe {σ : Type} (c : Client) (fallback : Fallback σ) : String :=
  let boolean (b : Bool) := if b then "true" else "false"
  let version := match c.version with
    | some v => "Some(Version \x7b major: " ++ toString v.major ++ ", minor: " ++ toString v.minor ++
        " \x7d)"
    | none => "None"
  "WsClient \x7b url: " ++ Text.quoted c.settings.url ++ ", version: " ++ version ++
    ", connected: " ++ boolean c.isConnected ++
    ", fallback: " ++ fallback.describe ++ " \x7d"

end Client

end ServerLink
