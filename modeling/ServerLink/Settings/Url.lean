import ServerLink.Text.Ranges

/-!
# Well-formed URLs

Which URLs can be asked for. Behind its scheme a URL has an authority, which says where the server
is and perhaps who asks, and a target there: a path, and perhaps a query. A fragment may follow,
which is not asked for and may hold anything.
-/

namespace ServerLink.Url

/-- Why a URL cannot be asked for. -/
inductive Fault where
  | tooLong
  | badCharacter
  | badAuthority
  | noAuthority
deriving DecidableEq, Repr

def Fault.message : Fault → String
  | .tooLong => "HTTP format error: uri too long"
  | .badCharacter => "HTTP format error: invalid uri character"
  | .badAuthority => "HTTP format error: invalid authority"
  | .noAuthority => "HTTP format error: invalid format"

/-- The bytes a URL may have at most. -/
def maxBytes : Nat := 65534

/-- The colons an authority may have at most: those of an address in brackets, and one for a port. -/
def maxColons : Nat := 8

/-- A character that stands for itself in an authority. -/
def isPlain (c : Char) : Bool :=
  Text.within [(0x21, 0x21), (0x24, 0x24), (0x26, 0x2e), (0x30, 0x39), (0x3b, 0x3b), (0x3d, 0x3d),
    (0x41, 0x5a), (0x5f, 0x5f), (0x61, 0x7a), (0x7e, 0x7e)] c

/-- What an authority has shown. Colons and percent signs of a user or of an address in brackets do
not count once it is over. -/
structure Authority where
  colons : Nat := 0
  percent : Bool := false
  opened : Bool := false
  closed : Bool := false

namespace Authority

def next (a : Authority) (c : Char) : Except Fault Authority :=
  match c with
  | ':' => if a.colons < maxColons then .ok { a with colons := a.colons + 1 } else .error .badAuthority
  | '[' => if a.percent || a.opened then .error .badAuthority else .ok { a with opened := true }
  | ']' =>
    if a.opened && !a.closed then .ok { a with closed := true, colons := 0, percent := false }
    else .error .badAuthority
  | '@' => .ok { a with colons := 0, percent := false }
  | '%' => .ok { a with percent := true }
  | c => if isPlain c then .ok a else .error .badCharacter

/-- An authority of these characters is complete. -/
def check (cs : List Char) : Except Fault Unit := do
  let a ← cs.foldlM next {}
  if a.opened != a.closed || 1 < a.colons || cs.getLast? = some '@' || a.percent then
    .error .badAuthority
  else if cs.isEmpty then .error .noAuthority
  else return

end Authority

/-- A character that a path may hold. -/
def isOfPath (c : Char) : Bool :=
  Text.within [(0x21, 0x22), (0x24, 0x3b), (0x3d, 0x3d), (0x40, 0x5f), (0x61, 0x7e), (0x80, 0x10ffff)] c

/-- A character that a query may hold. -/
def isOfQuery (c : Char) : Bool :=
  Text.within [(0x21, 0x21), (0x24, 0x3b), (0x3d, 0x3d), (0x3f, 0x7e), (0x80, 0x10ffff)] c

/-- A target, without its fragment, holds nothing that it may not. -/
def isTarget (cs : List Char) : Bool :=
  let cs := cs.takeWhile (· ≠ '#')
  (cs.takeWhile (· ≠ '?')).all isOfPath && ((cs.dropWhile (· ≠ '?')).drop 1).all isOfQuery

/-- Where an authority ends. -/
def endsAuthority (c : Char) : Bool := c = '/' || c = '?' || c = '#'

/-- Checks a URL whose scheme is well-formed. -/
def check (url : String) : Except Fault Unit :=
  if maxBytes < url.utf8ByteSize then .error .tooLong
  else do
    let cs := (url.toList.dropWhile (· ≠ ':')).drop 3
    Authority.check (cs.takeWhile (!endsAuthority ·))
    if isTarget (cs.dropWhile (!endsAuthority ·)) then return else .error .badCharacter

end ServerLink.Url
