import ServerLink.Calls
import ServerLink.Settings.Basic
import ServerLink.Subscription.Fanout
import ServerLink.Version

/-!
# A connection

A `Link` is one connection to a server, from the moment its socket is open. Several actors share
it: a reader, which takes what the server sends; a probe, which asks now and then whether the
server still answers; and the callers' tasks. Whoever writes waits in line for the write half of
the socket. `teardown` ends the connection once and for all: it ends every call with one reason,
closes every subscription, and tells the reader and the probe to stop.

This module holds the state and what is done in one step; `Link.Exchange` holds calls, which take
several, and `Link.Task` the tasks made of them.
-/

namespace ServerLink

/-- Who may write to the socket. -/
inductive Actor where
  | reader
  | probe
  | caller (task : Nat)
deriving DecidableEq, Repr

/-- How far a call has got. -/
inductive Exchange.Stage where
  /-- Waits in line to write its request. -/
  | queued
  | writing
  /-- Has written its request and waits for what the call comes to. -/
  | waiting
deriving DecidableEq, Repr

/-- A call under way. -/
structure Exchange where
  id : Nat
  method : String
  kind : Call.Kind
  frame : String
  stage : Exchange.Stage
deriving DecidableEq, Repr

/-- How far somebody has got who gives the write half back. -/
inductive Release where
  /-- Waits in line for it. -/
  | queued
  /-- Says goodbye to the server. -/
  | closing
deriving DecidableEq, Repr

/-- Where the reader stands. -/
inductive Reader.State where
  | running
  | releasing (stage : Release)
  | ended
deriving DecidableEq, Repr

/-- Where the probe stands. -/
inductive Probe.State where
  /-- Not started. -/
  | off
  /-- Waits for its next time. -/
  | resting
  | asking (exchange : Exchange)
  | releasing (stage : Release)
  | ended
deriving DecidableEq, Repr

/-- Whether the server sends job reports. -/
inductive JobStream where
  | unasked
  /-- A task has asked, and has not been answered. -/
  | asking (task : Nat)
  | live
deriving DecidableEq, Repr

/-- What a task gives when it succeeds. -/
inductive Reply where
  | value (v : Json)
  | subscription (s : Subscription)
  | version (v : Version)
  | done
deriving DecidableEq

abbrev Result := Except LinkError Reply

/-- Where a caller's task stands. A task with a token can be cancelled by it. -/
inductive Task where
  | call (exchange : Exchange) (token : Option Nat)
  /-- Another task is asking for job reports. -/
  | awaitJobs (method : String) (params : Json) (token : Option Nat)
  /-- Asks for job reports, to make a call afterwards. -/
  | askJobs (exchange : Exchange) (method : String) (params : Json) (token : Option Nat)
  | subscribe (subscription : Subscription) (exchange : Exchange)
  /-- The first step of a handshake. -/
  | login (exchange : Exchange)
  /-- The second step of a handshake. -/
  | readVersion (exchange : Exchange)
  | close (stage : Release)
  /-- Closing, waits for the reader and the probe to end. -/
  | join
deriving DecidableEq

structure Link where
  settings : Settings
  calls : Calls := {}
  fanout : Fanout := {}
  /-- How calls have ended whose tasks have not looked yet. -/
  slots : Table Nat Slot.End := []
  /-- The reader and the probe are to stop. -/
  stopped : Bool := false
  /-- Who waits for the write half, in order. The first one has it. -/
  line : List Actor := []
  /-- The write half has not been given back. -/
  writable : Bool := true
  /-- The requests handed to the socket, in order. -/
  sent : List String := []
  reader : Reader.State := .running
  probe : Probe.State := .off
  /-- Nobody has undertaken yet to wait for the reader and the probe. -/
  joinable : Bool := true
  jobStream : JobStream := .unasked
  tasks : Table Nat Task := []
  /-- What the tasks have given that ended by themselves. -/
  results : Table Nat Result := []
  /-- The tokens that have cancelled what they stand for. -/
  fired : List Nat := []
deriving DecidableEq

namespace Link

/-- Why the connection has ended, or a reason that says nothing more. -/
def closedError (l : Link) : LinkError := l.calls.closed.getD (.closed "connection closed")

/-- The connection has not ended. -/
def isOpen (l : Link) : Bool := l.calls.closed.isNone

/-- Keeps the ends of calls for their tasks. -/
def settle (l : Link) (ends : List Settlement) : Link :=
  { l with slots := ends.foldl (fun slots s => Table.insert slots s.call s.how) l.slots }

/-- Ends the connection. Only the first time has an effect. To end the calls and to end the
subscriptions, each under a lock of its own, is one step here. -/
def teardown (l : Link) (reason : LinkError) : Link :=
  match l.calls.failAll reason with
  | some (calls, ends) =>
    { (({ l with calls }).settle ends) with fanout := l.fanout.closeAll.1, stopped := true }
  | none => { l with stopped := true }

/-- Takes a frame of the server to whom it concerns. -/
def dispatch (l : Link) (text : String) : Link :=
  match Frame.ofText text with
  | .ok (.answer r) =>
    match l.calls.answer r with
    | some (calls, ends) => ({ l with calls }).settle ends
    | none => l
  | .ok (.job r) =>
    let (calls, ends) := l.calls.report r
    ({ l with calls }).settle ends
  | .ok (.change c) => { l with fanout := l.fanout.deliver c.collection c.payload }
  | .ok (.unrecognized _) => l
  | .error _ => l

/-- Gives a call up, together with what is kept of its end. -/
def forget (l : Link) (id : Nat) : Link :=
  let (calls, _) := l.calls.cancel id
  { l with calls, slots := Table.erase l.slots id }

/-! ## The line for the write half -/

def joinLine (l : Link) (a : Actor) : Link := { l with line := l.line ++ [a] }

def leaveLine (l : Link) (a : Actor) : Link := { l with line := l.line.filter (· ≠ a) }

/-- It is this one's turn. -/
def isTurn (l : Link) (a : Actor) : Bool := l.line.head? = some a

/-- Goes on with giving the write half back. If it is the turn of the one who does, the half is
taken out of use; whoever took it says goodbye, and any later one has nothing to do. None means
there is nothing left to do. -/
def release (l : Link) (a : Actor) : Release → Link × Option Release
  | .queued =>
    if l.isTurn a then
      if l.writable then (({ l with writable := false }).leaveLine a, some .closing)
      else (l.leaveLine a, none)
    else (l, some .queued)
  | .closing => (l, some .closing)

end Link

end ServerLink
