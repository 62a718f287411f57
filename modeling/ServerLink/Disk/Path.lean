/-!
# Paths

A path is a text of parts between slashes. Empty parts and the part `.` say nothing about where
the path leads, the part `..` leads up, and any other part is a name.
-/

namespace ServerLink

/-- The parts of a text between slashes, of which there is one more than slashes. -/
def Path.split : List Char → List (List Char)
  | [] => [[]]
  | c :: cs =>
    if c = '/' then [] :: split cs
    else match split cs with
      | [] => [[c]]
      | p :: ps => (c :: p) :: ps

/-- Where one part of a path leads. -/
inductive Path.Part where
  /-- To where one stands. -/
  | here
  /-- To the directory above. -/
  | up
  | name (n : String)
deriving DecidableEq, Repr

/-- What a path says: where it starts, where each part leads, and whether a slash ends it. -/
structure Path where
  absolute : Bool
  parts : List Path.Part
  trailingSlash : Bool
deriving DecidableEq, Repr

namespace Path

/-- Empty parts lead nowhere at all. -/
def Part.ofChars? (cs : List Char) : Option Part :=
  if cs = [] then none
  else if cs = ['.'] then some .here
  else if cs = ['.', '.'] then some .up
  else some (.name (String.ofList cs))

/-- What a text says as a path. -/
def ofText (text : String) : Path :=
  let cs := text.toList
  { absolute := cs.head? = some '/'
    parts := (split cs).filterMap Part.ofChars?
    trailingSlash := cs.getLast? = some '/' }

/-- The path has a part that leads up. -/
def leadsUp (p : Path) : Bool := p.parts.contains .up

/-- Slashes and parts `.` at the start of a text say nothing. -/
def trimStart : List Char → List Char
  | '/' :: cs => trimStart cs
  | '.' :: '/' :: cs => trimStart cs
  | ['.'] => []
  | cs => cs

/-- A text without what says nothing at its start and end. -/
def trim (cs : List Char) : List Char := (trimStart (trimStart cs).reverse).reverse

/-- The text of a path inside of a directory. -/
def inside (directory : String) (relative : String) : String :=
  if directory.endsWith "/" ∨ directory.isEmpty then directory ++ relative
  else directory ++ "/" ++ relative

/-- The text of a path in a directory; an absolute path stays as it is. -/
def join (directory path : String) : String :=
  if path.startsWith "/" then path else inside directory path

/-- The text of the path to the directory that holds what a path leads to. None if the path has
no name to leave out. -/
def parent? (text : String) : Option String :=
  let cs := text.toList
  let rec dropPart : List Char → List Char
    | [] => []
    | c :: cs => if c = '/' then c :: cs else dropPart cs
  let trimmed := trimStart cs.reverse
  if trimmed = [] then none
  else
    let rest := dropPart trimmed
    if rest = [] then some ""
    else
      let above := trimStart rest
      some (if above = [] ∧ cs.head? = some '/' then "/" else String.ofList above.reverse)

end Path

end ServerLink
