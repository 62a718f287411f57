import ServerLink.CommandLine.Arguments
import ServerLink.CommandLine.Execution

/-!
# The program

The program reads its arguments and settings. A command about the settings is carried out at once;
any other command needs a transport, which is connected before and closed afterwards. In between the
program waits for what happens to its transport.
-/

namespace ServerLink.CommandLine

inductive Program where
  | connecting (command : Command) (transport : Transport) (output : Output)
  | executing (execution : Execution)
  /-- The command has come to an outcome, and the transport is being closed. -/
  | closing (outcome : Except CommandError Unit) (transport : Transport) (output : Output)
  | over (outcome : Except CommandError Unit) (output : Output)
deriving DecidableEq

namespace Program

/-- The tasks of the program. -/
def connectTask : Nat := 0

def commandTask : Nat := 1

def closeTask : Nat := 2

/-- Goes on with what closing has come to, and flushes the output. A failure of either counts more
than the outcome. -/
def closed (outcome : Except CommandError Unit) (o : Output) : Option Result × Transport → Program
  | (some (.ok _), _) =>
    match o.flush with
    | (.ok (), o) => .over outcome o
    | (.error e, o) => .over (.error (.io e)) o
  | (some (.error e), _) => .over (.error (.link e)) o
  | (none, t) => .closing outcome t o

/-- The command is over, and the transport is to be closed. -/
def finish (outcome : Except CommandError Unit) (t : Transport) (o : Output) : Program :=
  closed outcome o (t.start closeTask .close)

def executed (e : Execution) : Program :=
  match e.stage with
  | .over outcome => finish outcome e.transport e.output
  | .waiting | .printing _ _ => .executing e

/-- Goes on with what connecting has come to. Arguments of the command are read only now. -/
def connected (c : Command) (o : Output) : Option Result × Transport → Program
  | (some (.ok _), t) =>
    match c.query? with
    | none => finish (.ok ()) t o
    | some (.error e) => finish (.error e) t o
    | some (.ok q) => executed (.start q commandTask t o)
  | (some (.error e), _) => .over (.error (.link e)) o
  | (none, t) => .connecting c t o

/-- Carries out a command with the settings that count. -/
def begin (h : Host) (c : Command) (s : Settings) : Program :=
  match c with
  | .settings action => .over (action.carryOut h s {}).1 (action.carryOut h s {}).2
  | c =>
    match Gateway.ofSettings s (none : Option (FileService Unit)) with
    | .error e => .over (.error (.link e)) {}
    | .ok g => connected c {} (g.transport.connect connectTask (s.credentials h))

/-- Starts the program with its arguments. It goes on without a logger, unless the filter for log
lines cannot even be taken apart. -/
def start (h : Host) (a : Arguments) : Program :=
  match Log.install a.log h.environment false, a.settings h with
  | .error (.offset e), _ => .over (.error (.logFilter e)) {}
  | _, .error e => .over (.error e) {}
  | _, .ok s => begin h a.command s

/-- Goes on as far as it can, some time after the last time. -/
def resume (p : Program) (milliseconds : Nat) : Program :=
  match p with
  | .connecting c t o => connected c o (t.result? connectTask, t)
  | .executing e => executed (e.resume milliseconds)
  | .closing outcome t o => closed outcome o (t.result? closeTask, t)
  | .over outcome o => .over outcome o

/-- The program with its transport changed. -/
def mapTransport (p : Program) (f : Transport → Transport) : Program :=
  match p with
  | .connecting c t o => .connecting c (f t) o
  | .executing e => .executing { e with transport := f e.transport }
  | .closing outcome t o => .closing outcome (f t) o
  | .over outcome o => .over outcome o

/-- Something happens to the program's client, and the program goes on. -/
def step (p : Program) (e : Client.Event) (milliseconds : Nat) : Program :=
  (p.mapTransport fun
    | .client c => .client (c.step e)
    | t => t).resume milliseconds

end Program

/-- How the program ends: with an exit status and what it has written. -/
structure Ending where
  code : Nat
  stdout : String
  /-- The last line on the error stream, if it tells of an error. -/
  stderr : Option String
deriving DecidableEq, Repr

namespace Ending

/-- The name of the program and its version. -/
def versionText : String := "mwrpc 0.1.0\n"

def usage : String := "Usage: mwrpc [OPTIONS] <COMMAND>\n"

/-- Arguments that are not carried out. -/
def ofRefusal : Refusal → Ending
  | .help => { code := 0, stdout := usage, stderr := none }
  | .version => { code := 0, stdout := versionText, stderr := none }
  | .nothingGiven | .noCommand | .unknownCommand | .unknownArgument | .missingValue | .repeated
  | .emptyOption | .unwantedValue | .badValue => { code := 2, stdout := "", stderr := some usage }

/-- The exit status of a program that breaks off. -/
def breakCode : Nat := 101

/-- How the program ends if it does; none while it waits. -/
def ofProgram? : Program → Option Ending
  | .over (.ok ()) o => some { code := 0, stdout := o.text, stderr := none }
  | .over (.error e) o => some <|
    if e.breaksOff then { code := breakCode, stdout := o.text, stderr := none }
    else { code := 1, stdout := o.text, stderr := some ("error: " ++ e.message) }
  | .connecting _ _ _ | .executing _ | .closing _ _ _ => none

end Ending

end ServerLink.CommandLine
