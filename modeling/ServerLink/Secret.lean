import ServerLink.Host
import ServerLink.Text.Blank

/-!
# Secrets

A setting that is secret may be given as a reference: to an entry of a password store, to an
environment variable, or to a file. Of a store's entry or a file the first line counts, without the
blanks at its end.
-/

namespace ServerLink

/-- Where a secret is to be found. -/
inductive Secret.Source where
  | store (entry : String)
  | variable (name : String)
  | file (path : String)
  /-- The text itself. -/
  | literal (text : String)
deriving DecidableEq, Repr

/-- Why a secret was not found. -/
inductive SecretError where
  | store (entry : String) (reason : String)
  | noVariable (name : String)
  | file (path : String) (error : IoError)
  /-- The first line is blank. -/
  | empty (source : String)
deriving DecidableEq

def SecretError.message : SecretError → String
  | .store entry reason => "`pass show " ++ entry ++ "` failed: " ++ reason
  | .noVariable name => "environment variable `" ++ name ++ "` is not set"
  | .file path e => "failed to read `" ++ path ++ "`: " ++ e.message
  | .empty source => source ++ " produced no output"

namespace Secret

/-- The text after a beginning. -/
def after? (beginning text : String) : Option String :=
  if text.startsWith beginning then
    some (String.ofList (text.toList.drop beginning.length))
  else none

/-- What a setting refers to. -/
def source (setting : String) : Source :=
  match after? "pass::" setting with
  | some entry => .store entry
  | none =>
    match after? "env::" setting with
    | some name => .variable name
    | none =>
      match after? "file::" setting with
      | some path => .file path
      | none => .literal setting

/-- The setting is not the secret itself. -/
def isReference (setting : String) : Bool :=
  ["pass::", "env::", "file::"].any fun beginning => setting.startsWith beginning

/-- The first line of a text without the blanks at its end, unless nothing is left. -/
def firstLine (text : String) : Option String :=
  match Text.trimEndChars (text.toList.takeWhile (· ≠ '\n')) with
  | [] => none
  | line => some (String.ofList line)

/-- The secret a password command has printed. -/
def ofOutput (entry : String) (o : CommandOutput) : Except SecretError String :=
  if o.status = .code 0 then
    match firstLine (Text.decodeLossy o.stdout) with
    | some line => .ok line
    | none => .error (.empty ("`pass show " ++ entry ++ "`"))
  else
    .error (.store entry
      ("exit " ++ o.status.describe ++ ": " ++ Text.trim (Text.decodeLossy o.stderr)))

def ofStore (h : Host) (entry : String) : Except SecretError String :=
  if entry.contains '\x00' then .error (.store entry "nul byte found in provided data")
  else match h.passwords with
    | none => .error (.store entry (IoError.system .notFound).message)
    | some ask => ofOutput entry (ask entry)

/-- No variable has a name that is empty or holds an equals sign. -/
def ofVariable (h : Host) (name : String) : Except SecretError String :=
  match h.environment.lookup name with
  | some value => if name.isEmpty || name.contains '=' then .error (.noVariable name) else .ok value
  | none => .error (.noVariable name)

def ofFile (h : Host) (path : String) : Except SecretError String :=
  match h.disk.readText path with
  | .error e => .error (.file path e)
  | .ok text =>
    match firstLine text with
    | some line => .ok line
    | none => .error (.empty ("`" ++ path ++ "`"))

/-- The secret that a setting stands for. -/
def resolve (h : Host) (setting : String) : Except SecretError String :=
  match source setting with
  | .store entry => ofStore h entry
  | .variable name => ofVariable h name
  | .file path => ofFile h path
  | .literal text => .ok text

end Secret

end ServerLink
