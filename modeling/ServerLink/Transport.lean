import ServerLink.Client
import ServerLink.StandIn

/-!
# Transports

Whoever uses a server does so through one of four transports and need not know which: a client, a
service for files alone, one that refuses every call, or a stand-in. A client needs time for what
it is asked; any other transport has answered at once. Operations on files go past the transport to
a service that was given with it, if there is one.
-/

namespace ServerLink

inductive Transport where
  | client (c : Client)
  /-- For operations on files alone. -/
  | files
  /-- Refuses every call. -/
  | refusing
  | standIn (s : StandIn)
deriving DecidableEq

namespace Transport

/-- The server's version, once a connection has been made. -/
def version? : Transport → Option Version
  | .client c => c.version
  | .files | .refusing => none
  | .standIn s => s.version?

/-- What a task has given, if the transport is a client and needed time for it. -/
def result? (t : Transport) (task : Nat) : Option Result :=
  match t with
  | .client c => c.result? task
  | .files | .refusing | .standIn _ => none

/-- Has a task connect the transport; gives its result if there is one at once. -/
def connect (t : Transport) (task : Nat) (credentials : Except SettingsError Credentials) :
    Option Result × Transport :=
  match t with
  | .client c =>
    let t := Transport.client (c.step (.connect task credentials))
    (t.result? task, t)
  | .files => (some (.ok .done), t)
  | .refusing => (some (.error (.unsupported "connect")), t)
  | .standIn s => (some (s.connect.1.map fun _ => .done), .standIn s.connect.2)

/-- What a transport without calls answers to an operation. -/
def refuse : Operation → Result
  | .call _ _ _ => .error (.unsupported "call")
  | .callAndWait _ _ _ => .error (.unsupported "call_and_wait")
  | .subscribe _ _ => .error (.unsupported "subscribe")
  | .close => .ok .done

/-- What a stand-in answers to an operation. -/
def answer (s : StandIn) : Operation → Result × StandIn
  | .call method params _ => ((s.call method params).1.map .value, (s.call method params).2)
  | .callAndWait method params _ =>
    ((s.callAndWait method params).1.map .value, (s.callAndWait method params).2)
  | .subscribe collection filter =>
    ((s.subscribe collection filter).1.map .subscription, (s.subscribe collection filter).2)
  | .close => (.ok .done, s.close)

/-- Starts a task; gives its result if there is one at once. -/
def start (t : Transport) (task : Nat) (o : Operation) : Option Result × Transport :=
  match t with
  | .client c =>
    let t := Transport.client (c.step (.start task o))
    (t.result? task, t)
  | .files | .refusing => (some (refuse o), t)
  | .standIn s => (some (answer s o).1, .standIn (answer s o).2)

/-- The subscriptions that a transport knows. -/
def fanout : Transport → Fanout
  | .client c => (c.link.map (·.fanout)).getD {}
  | .files | .refusing => {}
  | .standIn s => s.fanout

/-- A subscriber does something with a subscription; says what it finds. -/
def act (t : Transport) (s : Subscription) (a : Fanout.Act) : Mailbox.Found × Transport :=
  ((t.fanout.act s a).2,
    match t with
    | .client c => .client (c.step (.link (.subscriber s a)))
    | .files | .refusing => t
    | .standIn m => .standIn { m with fanout := (m.fanout.act s a).1 })

end Transport

/-- A transport, with what its operations on files are left to. -/
inductive Gateway (σ : Type) where
  | client (c : Client) (fallback : Fallback σ)
  | files (fallback : Fallback σ)
  | refusing (fallback : Fallback σ)
  | standIn (s : StandIn) (fallback : Fallback σ)

namespace Gateway

variable {σ : Type}

/-- A transport that is given a fallback. -/
def of : Transport → Fallback σ → Gateway σ
  | .client c, f => .client c f
  | .files, f => .files f
  | .refusing, f => .refusing f
  | .standIn s, f => .standIn s f

def transport : Gateway σ → Transport
  | .client c _ => .client c
  | .files _ => .files
  | .refusing _ => .refusing
  | .standIn s _ => .standIn s

/-- Where operations on files go. -/
def fallback : Gateway σ → Fallback σ
  | .client _ f => f
  | .files f => f
  | .refusing f => f
  | .standIn _ f => f

/-- Makes the transport that settings ask for. -/
def ofSettings (s : Settings) (files : Option (FileService σ)) : Except LinkError (Gateway σ) := do
  s.validate.mapError .ofSettings
  match s.route with
  | .websocket =>
    match files with
    | some service => return .client (.ofSettings s) (.ofService service)
    | none => return .client (.ofSettings s) .nowhere
  | .filesystem =>
    match files with
    | some service => return .files (.ofService service)
    | none => .error (.config "the filesystem transport needs a filesystem")
  | .unsupported => return .refusing { service? := files }

/-! ## Operations on files, whatever the state of the transport -/

def write (g : Gateway σ) (path : String) (contents : List UInt8) (mode : Nat) :
    σ → Except LinkError Unit × σ :=
  g.fallback.write path contents mode

def read (g : Gateway σ) (path : String) : σ → Except LinkError (List UInt8) × σ :=
  g.fallback.read path

def delete (g : Gateway σ) (path : String) : σ → Except LinkError Unit × σ :=
  g.fallback.delete path

def removeAll (g : Gateway σ) (path : String) : σ → Except LinkError Unit × σ :=
  g.fallback.removeAll path

def isThere (g : Gateway σ) (path : String) : σ → Except LinkError Bool × σ :=
  g.fallback.isThere path

def chown (g : Gateway σ) (path : String) (uid gid : Nat) : σ → Except LinkError Unit × σ :=
  g.fallback.chown path uid gid

def chmodAll (g : Gateway σ) (path : String) (mode : Nat) : σ → Except LinkError Unit × σ :=
  g.fallback.chmodAll path mode

def mkdirAll (g : Gateway σ) (path : String) (mode : Nat) : σ → Except LinkError Unit × σ :=
  g.fallback.mkdirAll path mode

def toService (g : Gateway σ) : FileService σ where
  write := g.write
  read := g.read
  delete := g.delete
  removeAll := g.removeAll
  isThere := g.isThere
  chown := g.chown
  chmodAll := g.chmodAll
  mkdirAll := g.mkdirAll

def serve (g : Gateway σ) : FileRequest → σ → Except LinkError FileReply × σ := g.toService.perform

/-! ## Steps -/

/-- What can happen to a transport. -/
inductive Event where
  | connect (task : Nat) (credentials : Except SettingsError Credentials)
  | start (task : Nat) (operation : Operation)
  | act (subscription : Subscription) (act : Fanout.Act)
  /-- A stand-in is told to send an event. -/
  | push (collection : String) (value : Json)
  /-- Something else that happens to a client. -/
  | client (event : Client.Event)
  | file (request : FileRequest)

/-- The transport, the files, and what each task has given that had its result at once. -/
structure State (σ : Type) where
  gateway : Gateway σ
  store : σ
  results : Table Nat Result := []
  replies : List (Except LinkError FileReply) := []

namespace State

/-- Something has happened to the transport; its fallback stays. -/
def setTransport (s : State σ) (t : Transport) : State σ :=
  { s with gateway := .of t s.gateway.fallback }

/-- Keeps the result of a task, if there is one. -/
def keep (s : State σ) (task : Nat) : Option Result × Transport → State σ
  | (some r, t) => { s.setTransport t with results := Table.insert s.results task r }
  | (none, t) => s.setTransport t

/-- What a task has given. -/
def result? (s : State σ) (task : Nat) : Option Result :=
  match s.results.lookup task with
  | some r => some r
  | none => s.gateway.transport.result? task

def step (s : State σ) : Event → State σ
  | .connect task credentials => s.keep task (s.gateway.transport.connect task credentials)
  | .start task o => s.keep task (s.gateway.transport.start task o)
  | .act sub a => s.setTransport (s.gateway.transport.act sub a).2
  | .push collection v =>
    match s.gateway.transport with
    | .standIn m => s.setTransport (.standIn (m.push collection v).2)
    | .client _ | .files | .refusing => s
  | .client e =>
    match s.gateway.transport with
    | .client c => s.setTransport (.client (c.step e))
    | .files | .refusing | .standIn _ => s
  | .file request =>
    let (reply, store) := s.gateway.serve request s.store
    { s with store, replies := s.replies ++ [reply] }

def run (s : State σ) (events : List Event) : State σ := events.foldl step s

end State

end Gateway

end ServerLink
