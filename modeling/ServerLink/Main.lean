import ServerLink.CommandLine.Program
import ServerLink.Disk.Trees

/-!
# The program's entry

Finds on the machine what the arguments refer to, runs the program, and writes what it has to say.
There is no network and no password command here: a connection cannot be opened, and a secret in
the password store is not found.
-/

namespace ServerLink.CommandLine

/-- The environment variables that the program looks at by itself. -/
def ownVariables : List String :=
  ["HOME", "XDG_CONFIG_HOME", Log.filterVariable] ++ Grammar.program.options.filterMap (·.variableName)

/-- The host with an environment variable, if it is set. -/
def withVariable (h : Host) (name : String) : IO Host := do
  match ← IO.getEnv name with
  | some value => return { h with environment := h.environment ++ [(name, value)] }
  | none => return h

/-- The host with a file, if it can be read. -/
def withFile (h : Host) (path : String) : IO Host := do
  try
    let contents ← IO.FS.readBinFile path
    return { h with disk := h.disk.withFile path contents.toList }
  catch _ => return h

/-- The host with what a setting refers to. -/
def withSource (h : Host) (setting : String) : IO Host :=
  match Secret.source setting with
  | .variable name => withVariable h name
  | .file path => withFile h path
  | .store _ | .literal _ => return h

/-- Runs the program on a host that has what the arguments refer to. -/
def runWith (h : Host) (a : Arguments) : IO Ending := do
  let h ← withFile h (a.config.getD (Settings.defaultPath h))
  let h ← match a.settings h with
    | .ok s => ([s.username, s.apiKey].filterMap id).foldlM withSource h
    | .error _ => pure h
  let reason := "IO error: " ++ (IoError.system .networkUnreachable).message
  let p := (Program.start h a).step (.opened (.failed reason)) 0
  return (Ending.ofProgram? p).getD { code := 0, stdout := "", stderr := none }

/-- Runs the program with its arguments, and gives its exit status. -/
def runProgram (arguments : List String) : IO UInt32 := do
  let h ← ownVariables.foldlM withVariable { disk := Disk.ofDirectory {} "here" }
  let ending ← match Arguments.read h.environment arguments with
    | .ok a => runWith h a
    | .error r => pure (Ending.ofRefusal r)
  IO.print ending.stdout
  if let some text := ending.stderr then IO.eprintln text
  return ending.code.toUInt32

end ServerLink.CommandLine

def main (arguments : List String) : IO UInt32 := ServerLink.CommandLine.runProgram arguments
