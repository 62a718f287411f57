import ServerLink.Link.Exchange

/-!
# Tasks on a connection

A task is what a caller has asked for and waits to see done: a call, a call that waits for a job, a
subscription, a handshake, or the close. `Link.step` says what each event does to a connection;
events that do not apply change nothing, so that any sequence of events is a run.
-/

namespace ServerLink

/-- What a caller asks a connection for. -/
inductive Operation where
  | call (method : String) (params : Json) (token : Option Nat)
  /-- A call that starts a job, whose end it waits for. -/
  | callAndWait (method : String) (params : Json) (token : Option Nat)
  | subscribe (collection : String) (filter : Json)
  | close
deriving DecidableEq

/-- What the server's side of the socket brings. -/
inductive Inbound where
  | text (frame : String)
  | binary (bytes : List UInt8)
  /-- A goodbye, with a reason or without. -/
  | goodbye (reason : String)
  /-- Something that concerns the socket alone. -/
  | control
  | failed (reason : String)
  | ended
deriving DecidableEq

/-- What a server answers to the probe. -/
def pong : String := "pong"

namespace Method

/-- How a user logs in who has a key. -/
def loginMechanism : String := "API_KEY_PLAIN"

/-- The answer to a login that is accepted. -/
def loginSuccess : String := "SUCCESS"

end Method

namespace Link

def setTask (l : Link) (task : Nat) (t : Task) : Link :=
  { l with tasks := Table.insert l.tasks task t }

/-- Ends a task with a result. -/
def finish (l : Link) (task : Nat) (r : Result) : Link :=
  { l with tasks := Table.erase l.tasks task, results := Table.insert l.results task r }

/-- Keeps a task that goes on, and lets one that is over go on to what comes next. -/
def proceed (task : Nat) (p : Link × Exchange.Progress) (going : Exchange → Task)
    (next : Link → Outcome → Link) : Link :=
  match p with
  | (l, .going x) => l.setTask task (going x)
  | (l, .over outcome) => next l outcome

/-- Ends a task with the outcome of its call. -/
def finishCall (task : Nat) (l : Link) (outcome : Outcome) : Link :=
  l.finish task (outcome.map .value)

/-! ## Waiting for jobs -/

/-- Calls a method that starts a job, once the server sends job reports. -/
def startJob (l : Link) (task : Nat) (method : String) (params : Json) (token : Option Nat) : Link :=
  proceed task (l.begin (.caller task) method params .job) (.call · token) (finishCall task)

/-- Goes on when the server has answered whether it sends job reports. -/
def jobsAnswered (task : Nat) (method : String) (params : Json) (token : Option Nat) (l : Link)
    (outcome : Outcome) : Link :=
  match outcome with
  | .error e => ({ l with jobStream := .unasked }).finish task (.error e)
  | .ok v =>
    if acknowledges v then ({ l with jobStream := .live }).startJob task method params token
    else ({ l with jobStream := .unasked }).finish task
      (.error (.subscriptionRejected jobCollection))

/-- Makes sure that the server sends job reports, and then makes the call. -/
def ensureJobs (l : Link) (task : Nat) (method : String) (params : Json) (token : Option Nat) :
    Link :=
  match l.jobStream with
  | .live => l.startJob task method params token
  | .asking _ => l.setTask task (.awaitJobs method params token)
  | .unasked =>
    proceed task
      (({ l with jobStream := .asking task }).begin (.caller task) Method.subscribe
        (.array [.string jobCollection]) .plain)
      (.askJobs · method params token) (jobsAnswered task method params token)

/-! ## Subscribing -/

/-- Goes on when the server has answered whether it accepts a subscription. -/
def subscribeAnswered (task : Nat) (s : Subscription) (l : Link) (outcome : Outcome) : Link :=
  match outcome with
  | .error e => ({ l with fanout := l.fanout.discard s }).finish task (.error e)
  | .ok v =>
    if acknowledges v then l.finish task (.ok (.subscription s))
    else ({ l with fanout := l.fanout.discard s }).finish task
      (.error (.subscriptionRejected s.collection))

/-- Subscribes to a collection. The subscription is open before the server is asked, so that it
misses nothing. -/
def startSubscribe (l : Link) (task : Nat) (collection : String) (filter : Json) : Link :=
  match l.fanout.register collection l.settings.capacity with
  | .error e => l.finish task (.error e)
  | .ok (s, fanout) =>
    let params := if filter.isNull then [.string collection] else [.string collection, filter]
    proceed task
      (({ l with fanout }).begin (.caller task) Method.subscribe (.array params) .plain)
      (.subscribe s) (subscribeAnswered task s)

/-! ## Logging in -/

def loginParams (c : Credentials) : Json :=
  .array [.ofMembers [("mechanism", .string Method.loginMechanism), ("username", .string c.username),
    ("api_key", .string c.apiKey)]]

/-- The version in the server's answer about it. -/
def versionOf (v : Json) : Except LinkError Version :=
  match v with
  | .string text =>
    match Version.ofText? text with
    | some version => .ok version
    | none => .error (.protocol ("no version number in " ++ Text.quoted text))
  | other => .error (.protocol ("unexpected version result " ++ other.render))

/-- Goes on when the server has said its version, which ends the handshake. -/
def versionAnswered (task : Nat) (l : Link) (outcome : Outcome) : Link :=
  l.finish task ((outcome >>= versionOf).map .version)

/-- Fails for a login that the server does not accept. -/
def loginOutcome (outcome : Outcome) : Except LinkError Unit :=
  match outcome with
  | .error (.rpc e) => .error (.authentication e.describe)
  | .error e => .error e
  | .ok v =>
    let said := ((v.get? "response_type").bind Json.toString?).getD "no response_type"
    if said = Method.loginSuccess then .ok ()
    else .error (.authentication ("server answered " ++ said))

/-- Goes on when the server has answered the login. -/
def loginAnswered (task : Nat) (l : Link) (outcome : Outcome) : Link :=
  match loginOutcome outcome with
  | .error e => l.finish task (.error e)
  | .ok () =>
    proceed task (l.begin (.caller task) Method.systemVersion .null .plain) .readVersion
      (versionAnswered task)

/-- Starts a handshake: logs in and asks for the version. -/
def startHandshake (l : Link) (task : Nat) (c : Credentials) : Link :=
  proceed task (l.begin (.caller task) Method.login (loginParams c) .plain) .login
    (loginAnswered task)

/-! ## Closing -/

/-- The reader and the probe have ended, or were never started. -/
def isQuiet (l : Link) : Bool := l.reader = .ended && (l.probe = .off || l.probe = .ended)

/-- Waits for the reader and the probe, unless somebody else has undertaken to. -/
def startJoin (l : Link) (task : Nat) : Link :=
  if l.joinable && !l.isQuiet then ({ l with joinable := false }).setTask task .join
  else ({ l with joinable := false }).finish task (.ok .done)

/-- Goes on with a close. -/
def continueClose (task : Nat) : Link × Option Release → Link
  | (l, some stage) => l.setTask task (.close stage)
  | (l, none) => l.startJoin task

def startClose (l : Link) (task : Nat) : Link :=
  let l := (l.teardown (.closed "client closed")).joinLine (.caller task)
  continueClose task (l.release (.caller task) .queued)

/-! ## The reader and the probe -/

/-- The reader goes on giving the write half back. -/
def continueReader : Link × Option Release → Link
  | (l, some stage) => { l with reader := .releasing stage }
  | (l, none) => { l with reader := .ended }

def stopReader (l : Link) : Link := continueReader ((l.joinLine .reader).release .reader .queued)

/-- The reason that a goodbye gives for the end of the connection. -/
def goodbyeReason (reason : String) : LinkError :=
  .closed (if reason.isEmpty then "server closed the connection"
    else "server closed the connection: " ++ reason)

/-- The reader takes what the server's side brings. -/
def receive (l : Link) : Inbound → Link
  | .text frame => l.dispatch frame
  | .binary bytes =>
    match Text.decode? bytes with
    | some frame => l.dispatch frame
    | none => l
  | .control => l
  | .goodbye reason => (l.teardown (goodbyeReason reason)).stopReader
  | .failed reason => (l.teardown (.transport reason)).stopReader
  | .ended => (l.teardown (.closed "connection reset by server")).stopReader

/-- The probe goes on giving the write half back. -/
def continueProbe : Link × Option Release → Link
  | (l, some stage) => { l with probe := .releasing stage }
  | (l, none) => { l with probe := .ended }

/-- The probe has failed: it ends the connection, unless that has ended already. -/
def probeFailed (l : Link) (failure : String) : Link :=
  if l.stopped then { l with probe := .ended }
  else
    let l := l.teardown (.closed ("liveness probe failed: " ++ failure))
    continueProbe ((l.joinLine .probe).release .probe .queued)

/-- Goes on when the probe's question has come to an end. -/
def probeAnswered (l : Link) (outcome : Outcome) : Link :=
  match outcome with
  | .ok v =>
    if v = .string pong then { l with probe := .resting }
    else l.probeFailed ("unexpected reply " ++ v.render)
  | .error e => l.probeFailed e.message

def continueProbing : Link × Exchange.Progress → Link
  | (l, .going x) => { l with probe := .asking x }
  | (l, .over outcome) => l.probeAnswered outcome

/-! ## Events -/

/-- What can happen to a connection. -/
inductive Event where
  /-- A caller asks for something, under a number that no task has had. -/
  | start (task : Nat) (operation : Operation)
  | handshake (task : Nat) (credentials : Credentials)
  /-- A task goes on; `eager` says that a token is looked at before anything else. -/
  | resume (task : Nat) (wakeup : Wakeup) (eager : Bool)
  /-- A caller no longer waits for its task. -/
  | drop (task : Nat)
  /-- A token cancels what it stands for. -/
  | fire (token : Nat)
  | subscriber (subscription : Subscription) (act : Fanout.Act)
  | receive (message : Inbound)
  /-- The reader sees that it is to stop. -/
  | stopReading
  | resumeReader (wakeup : Wakeup)
  | startProbe
  /-- It is time for the probe to ask. -/
  | tick
  | resumeProbe (wakeup : Wakeup) (eager : Bool)
  /-- The probe's question has taken too long. -/
  | probeLate
  /-- The connection is ended from outside. -/
  | teardown (reason : LinkError)
deriving DecidableEq

/-- What is asked of a task, when its token has asked for it. -/
def cancellation (asked eager : Bool) : Cancellation :=
  if asked then if eager then .seenFirst else .seenLast else .no

/-- A token has asked to cancel what it stands for. -/
def isFired (l : Link) : Option Nat → Bool
  | some token => l.fired.contains token
  | none => false

/-- Goes on with a task. -/
def resumeTask (l : Link) (task : Nat) (t : Task) (w : Wakeup) (eager : Bool) : Link :=
  let a := Actor.caller task
  match t with
  | .call x token =>
    proceed task (l.resume a x (cancellation (l.isFired token) eager) w) (.call · token)
      (finishCall task)
  | .awaitJobs method params token => l.ensureJobs task method params token
  | .askJobs x method params token =>
    proceed task (l.resume a x .no w) (.askJobs · method params token)
      (jobsAnswered task method params token)
  | .subscribe s x => proceed task (l.resume a x .no w) (.subscribe s) (subscribeAnswered task s)
  | .login x => proceed task (l.resume a x .no w) .login (loginAnswered task)
  | .readVersion x => proceed task (l.resume a x .no w) .readVersion (versionAnswered task)
  | .close .queued => continueClose task (l.release a .queued)
  | .close .closing =>
    match w with
    | .nothing | .late => l
    | .written | .writeFailed _ | .writeTimedOut => l.startJoin task
  | .join => if l.isQuiet then l.finish task (.ok .done) else l

/-- Gives a task up. What it has registered goes, a subscription that was not returned included. -/
def dropTask (l : Link) (task : Nat) (t : Task) : Link :=
  let l := { l with tasks := Table.erase l.tasks task }
  let a := Actor.caller task
  match t with
  | .call x _ | .login x | .readVersion x => l.abandon a x
  | .awaitJobs _ _ _ | .join => l
  | .askJobs x _ _ _ => { l.abandon a x with jobStream := .unasked }
  | .subscribe s x =>
    let l := l.abandon a x
    { l with fanout := l.fanout.discard s }
  | .close _ => l.leaveLine a

/-- A number that a task has or had. -/
def isUsed (l : Link) (task : Nat) : Bool :=
  (l.tasks.lookup task).isSome || (l.results.lookup task).isSome

/-- Starts what a caller asks for, and goes on as far as it can. -/
def startTask (l : Link) (task : Nat) : Operation → Link
  | .call method params token =>
    proceed task (l.begin (.caller task) method params .plain) (.call · token) (finishCall task)
  | .callAndWait method params token => l.ensureJobs task method params token
  | .subscribe collection filter => l.startSubscribe task collection filter
  | .close => l.startClose task

def step (l : Link) : Event → Link
  | .start task o => if l.isUsed task then l else l.startTask task o
  | .handshake task c => if l.isUsed task then l else l.startHandshake task c
  | .resume task w eager =>
    match l.tasks.lookup task with
    | some t => l.resumeTask task t w eager
    | none => l
  | .drop task =>
    match l.tasks.lookup task with
    | some t => l.dropTask task t
    | none => l
  | .fire token => { l with fired := l.fired ++ [token] }
  | .subscriber s act => { l with fanout := (l.fanout.act s act).1 }
  | .receive m => if l.reader = .running then l.receive m else l
  | .stopReading => if l.reader = .running && l.stopped then l.stopReader else l
  | .resumeReader w =>
    match l.reader with
    | .running | .ended => l
    | .releasing .queued => continueReader (l.release .reader .queued)
    | .releasing .closing =>
      match w with
      | .nothing | .late => l
      | .written | .writeFailed _ | .writeTimedOut => { l with reader := .ended }
  | .startProbe =>
    if l.probe = .off && l.settings.pingEvery?.isSome then { l with probe := .resting } else l
  | .tick =>
    if l.probe = .resting then continueProbing (l.begin .probe Method.ping .null .plain) else l
  | .resumeProbe w eager =>
    match l.probe with
    | .off | .ended => l
    | .resting => if l.stopped then { l with probe := .ended } else l
    | .asking x => continueProbing (l.resume .probe x (cancellation l.stopped eager) w)
    | .releasing .queued => continueProbe (l.release .probe .queued)
    | .releasing .closing =>
      match w with
      | .nothing | .late => l
      | .written | .writeFailed _ | .writeTimedOut => { l with probe := .ended }
  | .probeLate =>
    match l.probe, l.settings.pingEvery? with
    | .asking x, some seconds =>
      (l.abandon .probe x).probeFailed ("no reply within " ++ toString seconds ++ "s")
    | _, _ => l
  | .teardown reason => l.teardown reason

def run (l : Link) (events : List Event) : Link := events.foldl step l

/-- A connection whose socket has just been opened. -/
def ofSettings (settings : Settings) : Link := { settings }

/-- A state that a connection can get into. -/
def Reachable (l : Link) : Prop := ∃ settings events, l = (ofSettings settings).run events

end Link

end ServerLink
