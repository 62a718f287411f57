import ServerLink.Frame
import ServerLink.Link.Basic

/-!
# One call on a connection

A call is registered, waits for its turn to write, writes its request, and waits for its end. In
between it is suspended; each time it is resumed it goes on as far as it can. However it ends, and
also when it is given up, `forget` takes it out of the tables.
-/

namespace ServerLink

/-- What has become ready when a task is resumed. -/
inductive Wakeup where
  /-- Nothing but what the connection's state shows. -/
  | nothing
  /-- The socket has taken all that was to be written. -/
  | written
  | writeFailed (reason : String)
  | writeTimedOut
  /-- The time for the answer is over. -/
  | late
deriving DecidableEq, Repr

/-- Whether a task is to be cancelled. One that has come to its end as well may see either first. -/
inductive Cancellation where
  | no
  | seenFirst
  | seenLast
deriving DecidableEq, Repr

/-- Where a call is after it was resumed. -/
inductive Exchange.Progress where
  | going (exchange : Exchange)
  | over (outcome : Outcome)
deriving DecidableEq

namespace Link

/-- Starts to write when it is a call's turn, unless the write half is gone. -/
def enter (l : Link) (a : Actor) (x : Exchange) : Link × Exchange.Progress :=
  if l.isTurn a then
    if l.writable then
      ({ l with sent := l.sent ++ [x.frame] }, .going { x with stage := .writing })
    else ((l.leaveLine a).forget x.id, .over (.error l.closedError))
  else (l, .going x)

/-- Starts a call: registers it and takes its place in the line. -/
def begin (l : Link) (a : Actor) (method : String) (params : Json) (kind : Call.Kind) :
    Link × Exchange.Progress :=
  match l.calls.register kind with
  | .error e => (l, .over (.error e))
  | .ok (id, calls) =>
    let l := { l with calls }
    match Request.frame { id, method, params } with
    | .error e => (l.forget id, .over (.error (.ofFrameError e)))
    | .ok frame => (l.joinLine a).enter a { id, method, kind, frame, stage := .queued }

/-- A call's end, if it has come. A slot that was given up says why the connection ended. -/
def endOf? (l : Link) (id : Nat) : Option Outcome :=
  (l.slots.lookup id).map fun
    | .filled outcome => outcome
    | .abandoned => .error l.closedError

/-- The time to wait for an answer is bounded. Jobs may take any time. -/
def isTimed (l : Link) (x : Exchange) : Bool :=
  x.kind = .plain && l.settings.answerWithin?.isSome

/-- Looks whether a call that has been written has ended. -/
def await (l : Link) (x : Exchange) (c : Cancellation) (w : Wakeup) : Link × Exchange.Progress :=
  if c = .seenFirst then (l.forget x.id, .over (.error .cancelled))
  else match l.endOf? x.id with
    | some outcome => (l.forget x.id, .over outcome)
    | none =>
      if l.isTimed x && w = .late then
        (l.forget x.id, .over (.error (.timeout ("call " ++ x.method))))
      else if c = .seenLast then (l.forget x.id, .over (.error .cancelled))
      else (l, .going x)

/-- A write has failed, which ends the connection as well. -/
def failWrite (l : Link) (a : Actor) (x : Exchange) (reason : String) : Link × Exchange.Progress :=
  let e := LinkError.transport reason
  ((((l.leaveLine a).teardown e).forget x.id), .over (.error e))

/-- Goes on with a call, of which only the last stage can be cancelled. -/
def resume (l : Link) (a : Actor) (x : Exchange) (c : Cancellation) (w : Wakeup) :
    Link × Exchange.Progress :=
  match x.stage with
  | .queued => l.enter a x
  | .writing =>
    match w with
    | .written => (l.leaveLine a).await { x with stage := .waiting } c .nothing
    | .writeFailed reason => l.failWrite a x ("write failed: " ++ reason)
    | .writeTimedOut => l.failWrite a x "write timed out"
    | .nothing | .late => (l, .going x)
  | .waiting => l.await x c w

/-- Gives a call up, wherever it stands. -/
def abandon (l : Link) (a : Actor) (x : Exchange) : Link := (l.leaveLine a).forget x.id

end Link

end ServerLink
