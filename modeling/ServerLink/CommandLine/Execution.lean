import ServerLink.CommandLine.Basic
import ServerLink.Json.Pieces
import ServerLink.Transport

/-!
# Carrying a command out

A command asks a transport for something, waits for it, and prints what it gets. The command that
prints events stays: it prints each event on a line of its own, which it flushes out, and ends with
the subscription, with the number of events it was told, or with a write or flush that fails. Its
subscription ends with it.
-/

namespace ServerLink.CommandLine

/-- What is asked of a server. -/
inductive Query where
  | call (method : String) (params : Json)
  | job (method : String) (params : Json)
  | subscribe (collection : String) (filter : Json) (count : Option Nat)
  | version
  | ping
deriving DecidableEq

/-- The parameters in an argument. Without one there are none; a value that is no array is the only
one. -/
def readParams : Option String → Except CommandError Json
  | none => .ok (.array [])
  | some text =>
    match Json.read? text with
    | some (.array items) => .ok (.array items)
    | some v => .ok (.array [v])
    | none => .error (.badJson "params")

/-- The filter in an argument; null without one. -/
def readFilter : Option String → Except CommandError Json
  | none => .ok .null
  | some text =>
    match Json.read? text with
    | some v => .ok v
    | none => .error (.badJson "filter")

/-- What a command asks of a server; none if it concerns the settings alone. -/
def Command.query? : Command → Option (Except CommandError Query)
  | .call method params => some ((readParams params).map (.call method))
  | .job method params => some ((readParams params).map (.job method))
  | .subscribe collection filter count =>
    some ((readFilter filter).map (.subscribe collection · count))
  | .version => some (.ok .version)
  | .ping => some (.ok .ping)
  | .settings _ => none

/-- A value on lines of its own. -/
def document (v : Json) : List String := [v.pretty, "\n"]

/-- A value on one line. -/
def line (v : Json) : List String := v.pieces ++ ["\n"]

/-- A server's reply to a ping, with the time it took. -/
def pingLine (reply : Json) (milliseconds : Nat) : List String :=
  (match reply with
    | .string s => [s]
    | v => v.pieces) ++ [" (", toString milliseconds, " ms)\n"]

def versionLine (v : Version) : List String := [toString v.major, ".", toString v.minor, "\n"]

/-- Writes pieces of text for a command. -/
def put (o : Output) (pieces : List String) : Except CommandError Unit × Output :=
  ((o.writeAll pieces).1.mapError .io, (o.writeAll pieces).2)

/-- Writes a value on one line for a command, and flushes the line out. -/
def putLine (o : Output) (v : Json) : Except CommandError Unit × Output :=
  match put o (line v) with
  | (.error fault, o) => (.error fault, o)
  | (.ok (), o) => (o.flush.1.mapError .io, o.flush.2)

/-- How far a query has got. -/
inductive Execution.Stage where
  /-- Waits for what its task gives. -/
  | waiting
  /-- Prints events, `left` of them or all. -/
  | printing (subscription : Subscription) (left : Option Nat)
  | over (outcome : Except CommandError Unit)
deriving DecidableEq

/-- A query that is carried out under the number of a task. -/
structure Execution where
  query : Query
  task : Nat
  transport : Transport
  output : Output
  stage : Execution.Stage := .waiting
deriving DecidableEq

namespace Execution

/-- Ends with writing pieces of text. -/
def finishWith (e : Execution) (pieces : List String) : Execution :=
  { e with output := (put e.output pieces).2, stage := .over (put e.output pieces).1 }

/-- Gives up the subscription, and ends. -/
def finishPrinting (e : Execution) (s : Subscription) (outcome : Except CommandError Unit) :
    Execution :=
  { e with transport := (e.transport.act s .discard).2, stage := .over outcome }

/-- Prints the events that are there, at most `rounds - 1` of them. -/
def print (s : Subscription) : (rounds : Nat) → (left : Option Nat) → Execution → Execution
  | 0, left, e => { e with stage := .printing s left }
  | rounds + 1, left, e =>
    if left = some 0 then e.finishPrinting s (.ok ())
    else match e.transport.act s .poll with
      | (.nothing, transport) => { e with transport, stage := .printing s left }
      | (.ended, transport) => ({ e with transport }).finishPrinting s (.ok ())
      | (.value v, transport) =>
        match putLine e.output v with
        | (.ok (), output) => print s rounds (left.map (· - 1)) { e with transport, output }
        | (.error fault, output) =>
          ({ e with transport, output }).finishPrinting s (.error fault)

/-- How many events a subscriber has not read. -/
def unread (e : Execution) (s : Subscription) : Nat :=
  ((e.transport.fanout.mailbox? s).map (·.values.length)).getD 0

/-- Prints all the events that are there, and waits for more. -/
def printAll (e : Execution) (s : Subscription) (left : Option Nat) : Execution :=
  print s (e.unread s + 1) left e

/-- Goes on with what the task has given, after some time. -/
def answered (e : Execution) (milliseconds : Nat) : Option Result → Execution
  | none => e
  | some (.error fault) => { e with stage := .over (.error (.link fault)) }
  | some (.ok reply) =>
    match e.query, reply with
    | .call _ _, .value v | .job _ _, .value v => e.finishWith (document v)
    | .ping, .value v => e.finishWith (pingLine v milliseconds)
    | .subscribe _ _ count, .subscription s => e.printAll s count
    | _, _ => e

/-- Starts a task for a query. -/
def ask (e : Execution) (o : Operation) : Execution :=
  let (result, transport) := e.transport.start e.task o
  ({ e with transport }).answered 0 result

/-- Starts to carry a query out, and goes as far as it can. -/
def start (q : Query) (task : Nat) (t : Transport) (o : Output) : Execution :=
  let e : Execution := { query := q, task, transport := t, output := o }
  match q with
  | .call method params => e.ask (.call method params none)
  | .job method params => e.ask (.callAndWait method params none)
  | .subscribe collection filter _ => e.ask (.subscribe collection filter)
  | .ping => e.ask (.call Method.ping .null none)
  | .version =>
    match t.version? with
    | some v => e.finishWith (versionLine v)
    | none => { e with stage := .over (.error .noVersion) }

/-- Goes on as far as it can. -/
def resume (e : Execution) (milliseconds : Nat) : Execution :=
  match e.stage with
  | .waiting => e.answered milliseconds (e.transport.result? e.task)
  | .printing s left => e.printAll s left
  | .over _ => e

end Execution

/-! ## Commands about the settings -/

/-- Writes the settings that count. References to secrets stay references. -/
def dumpSettings (print : Toml.StringPrinter) (h : Host) (s : Settings) (o : Output) :
    Except CommandError Unit × Output :=
  match s.toText print with
  | .error e => (.error (.settings e), o)
  | .ok text => put o ["# config.toml (", Settings.defaultPath h, ")\n", text, "\n"]

/-- Checks the settings, and that the secrets are there. -/
def checkSettings (h : Host) (s : Settings) (o : Output) : Except CommandError Unit × Output :=
  match s.validate >>= fun _ => s.credentials h with
  | .error e => (.error (.settings e), o)
  | .ok c => put o ["Credentials for ", c.username, " resolved.\n", "Configuration is valid.\n"]

def SettingsAction.carryOut (a : SettingsAction) (h : Host) (s : Settings) (o : Output) :
    Except CommandError Unit × Output :=
  match a with
  | .dump => dumpSettings Toml.printString h s o
  | .validate => checkSettings h s o
  | .path => put o ["config: ", Settings.defaultPath h, "\n"]

end ServerLink.CommandLine
