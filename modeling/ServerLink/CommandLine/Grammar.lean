import ServerLink.Table

/-!
# Reading arguments by a grammar

A grammar says which options a command has, which values follow it, and which commands there are
below it. Arguments are read one at a time. An option that takes a value may have it attached or as
the next argument; an option or value is taken in only when the next one begins, or at the end, so
that of several faults the first one counts that is come upon in this order.
-/

namespace ServerLink.CommandLine

/-- Why arguments are not carried out. -/
inductive Refusal where
  /-- Help was asked for. -/
  | help
  /-- The program's version was asked for. -/
  | version
  /-- Nothing was given where a command has to follow. -/
  | nothingGiven
  | noCommand
  | unknownCommand
  | unknownArgument
  | missingValue
  | repeated
  /-- An option has no value, or an empty one that may not be empty. -/
  | emptyOption
  /-- A flag has a value. -/
  | unwantedValue
  | badValue
deriving DecidableEq, Repr

/-- What a parameter takes. -/
inductive Parameter.Kind where
  /-- No value: it is there or not. -/
  | flag
  /-- No value: it asks for help. -/
  | help
  /-- No value: it asks for the program's version. -/
  | version
  | text
  /-- A text that is not empty. -/
  | path
  /-- A number below a bound; zero may have a minus sign if `signed`. -/
  | number (bound : Nat) (signed : Bool)
deriving DecidableEq, Repr

/-- An option or value. -/
structure Parameter where
  name : String
  kind : Parameter.Kind
  long : Option String := none
  short : Option Char := none
  /-- The environment variable that stands for it. -/
  variableName : Option String := none
  required : Bool := false
deriving DecidableEq, Repr

structure Grammar where
  options : List Parameter
  /-- The values that follow, in order. -/
  values : List Parameter := []
  /-- The commands below, one of which has to follow if there are any. -/
  commands : List (String × Grammar) := []

/-- What was given for a parameter. -/
inductive Value where
  | present
  | text (s : String)
  | number (n : Nat)
deriving DecidableEq, Repr

namespace Parameter

def takesValue (p : Parameter) : Bool :=
  match p.kind with
  | .flag | .help | .version => false
  | .text | .path | .number _ _ => true

/-- The number that digits stand for. -/
def digits? (cs : List Char) : Option Nat :=
  if !cs.isEmpty && cs.all Char.isDigit then
    some (cs.foldl (fun n d => 10 * n + (d.toNat - '0'.toNat)) 0)
  else none

/-- The number that a text stands for: digits, perhaps after a sign. -/
def number? (signed : Bool) : List Char → Option Nat
  | '+' :: cs => digits? cs
  | '-' :: cs => if signed then (digits? cs).filter (· = 0) else none
  | cs => digits? cs

namespace Kind

/-- Reads a value. -/
def read (kind : Kind) (text : String) : Except Refusal Value :=
  match kind with
  | .flag | .help | .version => .ok .present
  | .text => .ok (.text text)
  | .path => if text.isEmpty then .error .emptyOption else .ok (.text text)
  | .number bound signed =>
    match number? signed text.toList with
    | some n => if n < bound then .ok (.number n) else .error .badValue
    | none => .error .badValue

end Kind

end Parameter

namespace Grammar

/-- What is below a grammar under a name. Wherever there are commands, `help` is one. -/
def below? (g : Grammar) (name : String) : Option Grammar :=
  if g.commands.isEmpty then none
  else if name = "help" then some { options := [] }
  else g.commands.lookup name

end Grammar

/-- A command whose arguments are being read. -/
structure Level where
  grammar : Grammar
  found : Table String Value := []
  /-- The option or value that was come upon last, with its text unless that is still to come. -/
  pending : Option (Parameter × Option String) := none
  /-- How many values have been come upon. -/
  passed : Nat := 0
  /-- Only values follow. -/
  literal : Bool := false

namespace Level

/-- Takes a parameter in. -/
def take (l : Level) (p : Parameter) (text : Option String) : Except Refusal Level :=
  match text with
  | none => .error .emptyOption
  | some text =>
    if (l.found.lookup p.name).isSome then .error .repeated
    else (p.kind.read text).map fun v => { l with found := l.found ++ [(p.name, v)] }

/-- Takes in what was come upon last. -/
def settle (l : Level) : Except Refusal Level :=
  match l.pending with
  | none => .ok l
  | some (p, text) => take { l with pending := none } p text

/-- An option waits for its value. -/
def isWaiting (l : Level) : Bool :=
  match l.pending with
  | some (_, none) => true
  | _ => false

/-- An option that takes no value. -/
def flag (l : Level) (p : Parameter) : Except Refusal Level := do
  let l ← l.settle
  match p.kind with
  | .help => .error .help
  | .version => .error .version
  | _ => l.take p (some "")

/-- An option that takes a value, which may be attached. -/
def option (l : Level) (p : Parameter) (attached : Option String) : Except Refusal Level := do
  let l ← l.settle
  match attached with
  | some text => l.take p (some text)
  | none => return { l with pending := some (p, none) }

/-- An argument after two dashes: an option's name, perhaps with an equals sign and a value. -/
def long (l : Level) (cs : List Char) : Except Refusal Level :=
  let name := String.ofList (cs.takeWhile (· ≠ '='))
  let attached := match cs.dropWhile (· ≠ '=') with
    | _ :: text => some (String.ofList text)
    | [] => none
  match l.grammar.options.find? (·.long = some name) with
  | none => .error .unknownArgument
  | some p =>
    if p.takesValue then l.option p attached
    else if attached.isSome then .error .unwantedValue
    else l.flag p

/-- An argument after one dash: letters of options, the last of which may have its value attached,
with or without an equals sign. -/
def short (l : Level) : List Char → Except Refusal Level
  | [] => .ok l
  | c :: cs =>
    match l.grammar.options.find? (·.short = some c) with
    | none => .error .unknownArgument
    | some p =>
      if p.takesValue then
        l.option p <| match cs with
          | [] => none
          | '=' :: text => some (String.ofList text)
          | text => some (String.ofList text)
      else do short (← l.flag p) cs

/-- An argument that is no option. -/
def value (l : Level) (text : String) : Except Refusal Level :=
  match l.grammar.values[l.passed]? with
  | some p => do
    let l ← l.settle
    return { l with pending := some (p, some text), passed := l.passed + 1 }
  | none =>
    if l.grammar.commands.isEmpty || (l.literal && (l.grammar.below? text).isSome) then
      .error .unknownArgument
    else .error .unknownCommand

/-- An argument that is no command. -/
def argument (l : Level) (text : String) : Except Refusal Level :=
  if l.literal then l.value text
  else match text.toList with
    | ['-', '-'] => .ok { l with literal := true }
    | '-' :: '-' :: cs => l.long cs
    | '-' :: c :: cs => l.short (c :: cs)
    | _ =>
      match l.pending with
      | some (p, none) => .ok { l with pending := some (p, some text) }
      | _ => l.value text

/-- An argument names a command below. -/
def command? (l : Level) (text : String) : Option Grammar :=
  if l.literal || l.isWaiting then none else l.grammar.below? text

/-- Takes in what environment variables say about parameters that are not given. -/
def takeVariables (l : Level) (environment : Table String String) : Except Refusal Level :=
  l.grammar.options.foldlM (fun l p =>
    match l.found.lookup p.name, p.variableName.bind (environment.lookup ·) with
    | none, some text => l.take p (some text)
    | _, _ => .ok l) l

/-- The end of the arguments. -/
def finish (l : Level) (environment : Table String String) (hasCommand : Bool) :
    Except Refusal Level := do
  let l ← (← l.settle).takeVariables environment
  if !hasCommand && !l.grammar.commands.isEmpty then
    if l.found.isEmpty then .error .nothingGiven else .error .noCommand
  else if l.grammar.values.any fun p => p.required && (l.found.lookup p.name).isNone then
    .error .missingValue
  else return l

end Level

/-- Where the reading of arguments stands. -/
inductive Reading where
  /-- In a command, below others that were named on the way, the innermost first. -/
  | level (inner : Level) (outer : List (String × Level))
  /-- Finding out what help is asked about. -/
  | help (grammar : Grammar)

namespace Reading

def step (r : Reading) (text : String) : Except Refusal Reading :=
  match r with
  | .help g =>
    match g.below? text with
    | some g => .ok (.help g)
    | none => .error .unknownCommand
  | .level l outer =>
    match l.command? text with
    | none => (l.argument text).map (.level · outer)
    | some g =>
      if text = "help" then .ok (.help l.grammar)
      else .ok (.level { grammar := g } ((text, l) :: outer))

end Reading

/-- What arguments say: the commands on the way to the innermost one, and what was given. -/
structure Reading.Result where
  path : List String
  found : Table String Value
deriving DecidableEq, Repr

namespace Reading

def finish (r : Reading) (environment : Table String String) : Except Refusal Result :=
  match r with
  | .help _ => .error .help
  | .level l outer => do
    let l ← l.finish environment false
    outer.foldlM (fun r (name, l) => do
      let l ← l.finish environment true
      return { path := name :: r.path, found := l.found ++ r.found }) ⟨[], l.found⟩

end Reading

/-- Reads arguments. -/
def Grammar.read (g : Grammar) (environment : Table String String) (arguments : List String) :
    Except Refusal Reading.Result := do
  (← arguments.foldlM Reading.step (.level { grammar := g } [])).finish environment

end ServerLink.CommandLine
