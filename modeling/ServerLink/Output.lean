import ServerLink.Error

/-!
# Output

What a program has written. An output may be closed by its reader: then a write fails that would
take it beyond a limit, and nothing of that write is seen. What was written may also fail to be
flushed out, after some times that it was.
-/

namespace ServerLink

structure Output where
  text : String := ""
  /-- How many bytes the output takes. -/
  limit : Option Nat := none
  /-- How many times the output can still be flushed. -/
  flushes : Option Nat := none
deriving DecidableEq, Repr

namespace Output

/-- Writes a piece of text. -/
def write (o : Output) (piece : String) : Except IoError Unit × Output :=
  let text := o.text ++ piece
  if o.limit.any (· < text.utf8ByteSize) then (.error (.other "output closed"), o)
  else (.ok (), { o with text })

/-- Writes pieces of text, until one fails. -/
def writeAll (o : Output) : List String → Except IoError Unit × Output
  | [] => (.ok (), o)
  | p :: ps =>
    match o.write p with
    | (.ok (), o) => writeAll o ps
    | (.error e, o) => (.error e, o)

/-- Flushes out what was written. -/
def flush (o : Output) : Except IoError Unit × Output :=
  match o.flushes with
  | none => (.ok (), o)
  | some 0 => (.error (.other "output closed"), o)
  | some (n + 1) => (.ok (), { o with flushes := some n })

end Output

end ServerLink
