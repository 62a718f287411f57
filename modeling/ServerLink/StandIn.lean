import ServerLink.Frame
import ServerLink.Settlement
import ServerLink.Subscription.Fanout
import ServerLink.Version

/-!
# A stand-in for a server

A `StandIn` answers calls from tables that are made beforehand, and keeps note of every call. Its
subscriptions are real.
-/

namespace ServerLink

structure StandIn where
  /-- What calls come to. -/
  replies : Table String Outcome := []
  /-- What calls that start a job come to. -/
  jobs : Table String Outcome := []
  version : Version := ⟨25, 4⟩
  /-- How many unread events a subscription keeps. -/
  capacity : Nat := 64
  connected : Bool := false
  closed : Bool := false
  /-- Every call so far, with its parameters. -/
  asked : List (String × Json) := []
  fanout : Fanout := {}
deriving DecidableEq

namespace StandIn

/-- Has a method answered with a result. -/
def withReply (s : StandIn) (method : String) (result : Json) : StandIn :=
  { s with replies := Table.insert s.replies method (.ok result) }

/-- Has a method fail. -/
def withError (s : StandIn) (method : String) (e : RpcError) : StandIn :=
  { s with replies := Table.insert s.replies method (.error (.rpc e)) }

/-- Has a method start a job that succeeds. -/
def withJob (s : StandIn) (method : String) (result : Json) : StandIn :=
  { s with jobs := Table.insert s.jobs method (.ok result) }

/-- Has a method start a job that ends otherwise. -/
def withFailedJob (s : StandIn) (method : String) (state : Job.State) (message : String) : StandIn :=
  let e : Job.Failure :=
    { jobId := 1, state, message := some message, exception := none, payload := .null }
  { s with jobs := Table.insert s.jobs method (.error (.job e)) }

def connect (s : StandIn) : Except LinkError Unit × StandIn :=
  if s.connected then (.error .alreadyConnected, s) else (.ok (), { s with connected := true })

/-- The version, from the connection on. -/
def version? (s : StandIn) : Option Version := if s.connected then some s.version else none

/-- Fails if nothing can be asked. -/
def ready (s : StandIn) : Except LinkError Unit :=
  if s.closed then .error (.closed "client closed")
  else if !s.connected then .error .notConnected
  else .ok ()

/-- What a method comes to. One that is in no table is unknown. -/
def answerFrom (table : Table String Outcome) (method : String) : Outcome :=
  (table.lookup method).getD
    (.error (.rpc { code := -32601, message := "Method " ++ method ++ " not found" }))

def note (s : StandIn) (method : String) (params : Json) : StandIn :=
  { s with asked := s.asked ++ [(method, params)] }

def call (s : StandIn) (method : String) (params : Json) : Outcome × StandIn :=
  match s.ready with
  | .error e => (.error e, s)
  | .ok () => (answerFrom s.replies method, s.note method params)

def callAndWait (s : StandIn) (method : String) (params : Json) : Outcome × StandIn :=
  match s.ready with
  | .error e => (.error e, s)
  | .ok () => (answerFrom s.jobs method, s.note method params)

/-- Subscribes; the filter is what is noted. -/
def subscribe (s : StandIn) (collection : String) (filter : Json) :
    Except LinkError Subscription × StandIn :=
  match s.ready with
  | .error e => (.error e, s)
  | .ok () =>
    let s := s.note Method.subscribe filter
    match s.fanout.register collection s.capacity with
    | .ok (sub, fanout) => (.ok sub, { s with fanout })
    | .error e => (.error e, s)

def close (s : StandIn) : StandIn :=
  if s.closed then s else { s with closed := true, fanout := s.fanout.closeAll.1 }

/-- Sends an event to the subscribers of a collection; says how many there are. -/
def push (s : StandIn) (collection : String) (v : Json) : Nat × StandIn :=
  (s.fanout.count collection, { s with fanout := s.fanout.deliver collection v })

end StandIn

end ServerLink
