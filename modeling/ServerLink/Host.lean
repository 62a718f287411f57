import ServerLink.Disk.Basic

/-!
# The machine a program runs on

What a program finds around it: environment variables, a disk, and a password store that is asked
by running a command.
-/

namespace ServerLink

/-- How a command ended. -/
inductive ExitStatus where
  | code (n : Nat)
  | signal (n : Nat)
deriving DecidableEq, Repr

/-- The usual name of a signal. -/
def signalName? (n : Nat) : Option String :=
  [(1, "SIGHUP"), (2, "SIGINT"), (3, "SIGQUIT"), (4, "SIGILL"), (5, "SIGTRAP"), (6, "SIGABRT"),
    (7, "SIGBUS"), (8, "SIGFPE"), (9, "SIGKILL"), (10, "SIGUSR1"), (11, "SIGSEGV"), (12, "SIGUSR2"),
    (13, "SIGPIPE"), (14, "SIGALRM"), (15, "SIGTERM"), (16, "SIGSTKFLT"), (17, "SIGCHLD"),
    (18, "SIGCONT"), (19, "SIGSTOP"), (20, "SIGTSTP"), (21, "SIGTTIN"), (22, "SIGTTOU"),
    (23, "SIGURG"), (24, "SIGXCPU"), (25, "SIGXFSZ"), (26, "SIGVTALRM"), (27, "SIGPROF"),
    (28, "SIGWINCH"), (29, "SIGIO"), (30, "SIGPWR"), (31, "SIGSYS")].lookup n

def ExitStatus.describe : ExitStatus → String
  | .code n => "exit status: " ++ toString n
  | .signal n =>
    match signalName? n with
    | some name => "signal: " ++ toString n ++ " (" ++ name ++ ")"
    | none => "signal: " ++ toString n

/-- What a command that has run wrote, and how it ended. -/
structure CommandOutput where
  stdout : List UInt8 := []
  stderr : List UInt8 := []
  status : ExitStatus := .code 0
deriving DecidableEq, Repr

structure Host where
  environment : Table String String := []
  disk : Disk
  /-- What the password command says about each entry, if there is such a command. -/
  passwords : Option (String → CommandOutput) := none

end ServerLink
