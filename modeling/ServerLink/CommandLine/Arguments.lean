import ServerLink.CommandLine.Basic
import ServerLink.CommandLine.Grammar

/-!
# The arguments of this program

The grammar of the command line, and what the arguments say that it admits.
-/

namespace ServerLink.CommandLine

namespace Grammar

/-- Every command can be asked for help. -/
def helpOption : Parameter := { name := "help", kind := .help, long := some "help", short := some 'h' }

def textOption (name long : String) (short : Option Char) (env : String) : Parameter :=
  { name, kind := .text, long := some long, short, variableName := some env }

def flagOption (name long : String) (short : Option Char) : Parameter :=
  { name, kind := .flag, long := some long, short }

/-- A text that follows a command, and one that may follow it. -/
def textValues (required optional : String) : List Parameter :=
  [{ name := required, kind := .text, required := true }, { name := optional, kind := .text }]

def ofValues (values : List Parameter) : Grammar := { options := [helpOption], values }

def program : Grammar where
  options := [
    { name := "config", kind := .path, long := some "config", short := some 'c',
      variableName := some "MWRPC_CONFIG" },
    flagOption "debug" "debug" (some 'v'),
    flagOption "json_logs" "json-logs" none,
    textOption "host" "host" (some 'H') "MWRPC_HOST",
    { name := "port", kind := .number (2 ^ 16) true, long := some "port", short := some 'p' },
    textOption "username" "username" (some 'u') "MWRPC_USERNAME",
    textOption "api_key" "api-key" none "MWRPC_API_KEY",
    flagOption "no_tls" "no-tls" none,
    flagOption "insecure" "insecure" (some 'k'),
    { name := "timeout", kind := .number (2 ^ 64) false, long := some "timeout" },
    helpOption,
    { name := "version", kind := .version, long := some "version", short := some 'V' }]
  commands := [
    ("call", ofValues (textValues "method" "params")),
    ("job", ofValues (textValues "method" "params")),
    ("subscribe",
      { options := [
          { name := "count", kind := .number (2 ^ 64) false, long := some "count", short := some 'n' },
          helpOption]
        values := textValues "collection" "filter" }),
    ("version", ofValues []),
    ("ping", ofValues []),
    ("config",
      { options := [helpOption]
        commands := [("dump", ofValues []), ("validate", ofValues []), ("path", ofValues [])] })]

end Grammar

namespace Reading.Result

def has (r : Result) (name : String) : Bool := (r.found.lookup name).isSome

def text? (r : Result) (name : String) : Option String :=
  match r.found.lookup name with
  | some (.text s) => some s
  | _ => none

def number? (r : Result) (name : String) : Option Nat :=
  match r.found.lookup name with
  | some (.number n) => some n
  | _ => none

/-- The command that is named. -/
def command? (r : Result) : Option Command :=
  match r.path with
  | ["call"] => (r.text? "method").map (.call · (r.text? "params"))
  | ["job"] => (r.text? "method").map (.job · (r.text? "params"))
  | ["subscribe"] =>
    (r.text? "collection").map (.subscribe · (r.text? "filter") (r.number? "count"))
  | ["version"] => some .version
  | ["ping"] => some .ping
  | ["config", "dump"] => some (.settings .dump)
  | ["config", "validate"] => some (.settings .validate)
  | ["config", "path"] => some (.settings .path)
  | _ => none

end Reading.Result

namespace Arguments

def ofResult? (r : Reading.Result) : Option Arguments :=
  r.command?.map fun command =>
    { config := r.text? "config"
      debug := r.has "debug"
      jsonLogs := r.has "json_logs"
      host := r.text? "host"
      port := r.number? "port"
      username := r.text? "username"
      apiKey := r.text? "api_key"
      noTls := r.has "no_tls"
      insecure := r.has "insecure"
      timeout := r.number? "timeout"
      command }

/-- Reads the arguments of the program. -/
def read (environment : Table String String) (arguments : List String) : Except Refusal Arguments := do
  match ofResult? (← Grammar.program.read environment arguments) with
  | some a => return a
  | none => .error .noCommand

end Arguments

end ServerLink.CommandLine
