import ServerLink.Log.Field
import ServerLink.Text.Part

/-!
# Filters of log lines

A filter is a list of directives with commas between them. A directive is a level, or a target, a
span in brackets, or both, with a level behind an equals sign.
-/

namespace ServerLink.Log

/-- How grave a logged event is, the gravest first. -/
inductive Level where
  | error
  | warn
  | info
  | debug
  | trace
deriving DecidableEq, Repr

namespace Level

def name : Level → String
  | .error => "ERROR"
  | .warn => "WARN"
  | .info => "INFO"
  | .debug => "DEBUG"
  | .trace => "TRACE"

def all : List Level := [error, warn, info, debug, trace]

def ofName? (text : String) : Option Level := all.find? (·.name = text)

end Level

namespace Filter

/-- A level is a name in letters of either case, `off` included, or a number from zero to five. -/
def isLevel (cs : List Char) : Bool :=
  let digits := match cs with
    | '+' :: r => r
    | r => r
  if !digits.isEmpty && digits.all Char.isDigit then
    digits.foldl (fun n d => 10 * n + (d.toNat - '0'.toNat)) 0 ≤ 5
  else ("OFF" :: Level.all.map Level.name).contains (String.ofList (cs.map Char.toUpper))

/-- A character that starts a target. -/
def startsTarget (c : Char) : Bool := ['-', ':', '_'].contains c || Text.isLetterOrNumeral c

/-- Why a filter is of no use. -/
inductive Fault where
  | malformed
  /-- A part of the filter would start or end inside a character. -/
  | offset (error : Text.OffsetError)
deriving DecidableEq, Repr

/-- Where a reader of a directive stands. -/
inductive Position where
  | start
  | target
  /-- In a span, whose name starts at an offset. -/
  | span (first : Nat)
  /-- In a field of a span, which starts at an offset. -/
  | field (first : Nat)
  | afterFields
  | afterSpan
deriving DecidableEq, Repr

/-- Checks a directive from a position on, at an offset into the directive without the blanks around
it. Its parts are taken from `whole`, which has the blanks in front, at the same offsets. -/
def checkFrom (whole : List Char) : Position → (offset : Nat) → List Char → Except Fault Unit
  | .start, i, c :: cs =>
    if c = '[' then checkFrom whole (.span (i + 1)) (i + c.utf8Size) cs
    else if startsTarget c then checkFrom whole .target (i + c.utf8Size) cs
    else .error .malformed
  | .target, i, c :: cs =>
    if c = '=' then (part 0 i).bind fun _ => checkLevel (i + 1)
    else if c = '[' then
      (part 0 i).bind fun _ => checkFrom whole (.span (i + 1)) (i + c.utf8Size) cs
    else checkFrom whole .target (i + c.utf8Size) cs
  | .span first, i, c :: cs =>
    if c = ']' then (part first i).bind fun _ => checkFrom whole .afterSpan (i + c.utf8Size) cs
    else if c = '\x7b' then
      (part first i).bind fun _ => checkFrom whole (.field (i + 1)) (i + c.utf8Size) cs
    else checkFrom whole (.span first) (i + c.utf8Size) cs
  | .field first, i, c :: cs =>
    if c = '\x7d' then (part first i).bind fun field =>
      if Field.isWellFormed field then checkFrom whole .afterFields (i + c.utf8Size) cs
      else .error .malformed
    else checkFrom whole (.field first) (i + c.utf8Size) cs
  | .afterFields, i, c :: cs =>
    if c = ']' then checkFrom whole .afterSpan (i + c.utf8Size) cs else .error .malformed
  | .afterSpan, i, c :: _ => if c = '=' then checkLevel (i + 1) else .error .malformed
  | .target, _, [] | .afterSpan, _, [] => .ok ()
  | .start, _, [] | .span _, _, [] | .field _, _, [] | .afterFields, _, [] => .error .malformed
where
  part (start stop : Nat) : Except Fault (List Char) :=
    (Text.part start stop whole).mapError .offset
  /-- A level, or nothing, stands from an offset to the end. -/
  checkLevel (start : Nat) : Except Fault Unit := do
    let level ← (Text.partFrom start whole).mapError .offset
    if level.isEmpty || isLevel level then return else .error .malformed

def checkDirective (cs : List Char) : Except Fault Unit := checkFrom cs .start 0 (Text.trimChars cs)

/-- Checks the directives of a filter one after the other; empty ones do not count. -/
def check (filter : String) : Except Fault Unit :=
  (filter.splitOn ",").forM fun d => if d.isEmpty then .ok () else checkDirective d.toList

end Filter

end ServerLink.Log
