import ServerLink.Json.Token

/-!
# Reading a document

The reader takes one token at a time and keeps the arrays and objects it is inside of, the
innermost first. A document is one value, whose arrays and objects nest at most `maxDepth` deep.
-/

namespace ServerLink.Json

/-- How deep arrays and objects may nest. -/
def maxDepth : Nat := 127

namespace Reader

/-- An array or object that is not yet closed, with what it holds so far, the latest first. -/
inductive Open where
  | array (items : List Json)
  | object (members : List (String × Json))
  /-- An object after a key and its colon. -/
  | member (members : List (String × Json)) (key : String)

/-- What may come next. -/
inductive Expect where
  /-- A value. -/
  | value
  /-- A value, or the end of an array that has none. -/
  | valueOrClose
  /-- A key, or the end of an object that has none. -/
  | keyOrClose
  | key
  | colon (key : String)
  /-- A comma, or the end of the innermost array or object. -/
  | commaOrClose
  /-- Nothing more. -/
  | done (document : Json)

structure State where
  stack : List Open := []
  expect : Expect := .value

/-- Puts a finished value where it belongs. -/
def place (stack : List Open) (v : Json) : Option State :=
  match stack with
  | [] => some ⟨[], .done v⟩
  | .array items :: rest => some ⟨.array (v :: items) :: rest, .commaOrClose⟩
  | .member members key :: rest => some ⟨.object ((key, v) :: members) :: rest, .commaOrClose⟩
  | .object _ :: _ => none

/-- Opens an array or object, unless it would be nested too deep. -/
def descend (stack : List Open) (o : Open) (expect : Expect) : Option State :=
  if stack.length < maxDepth then some ⟨o :: stack, expect⟩ else none

/-- A token where a value is due. -/
def beginValue (stack : List Open) : Token → Option State
  | .scalar v => place stack v
  | .openArray => descend stack (.array []) .valueOrClose
  | .openObject => descend stack (.object []) .keyOrClose
  | _ => none

/-- The end of the innermost array. -/
def closeArray : List Open → Option State
  | .array items :: rest => place rest (.array items.reverse)
  | _ => none

/-- The end of the innermost object. -/
def closeObject : List Open → Option State
  | .object members :: rest => place rest (ofMembers members.reverse)
  | _ => none

def step (st : State) (t : Token) : Option State :=
  match st.expect, t with
  | .value, t => beginValue st.stack t
  | .valueOrClose, .closeArray => closeArray st.stack
  | .valueOrClose, t => beginValue st.stack t
  | .keyOrClose, .closeObject => closeObject st.stack
  | .keyOrClose, .scalar (.string k) => some { st with expect := .colon k }
  | .key, .scalar (.string k) => some { st with expect := .colon k }
  | .colon key, .colon =>
    match st.stack with
    | .object members :: rest => some ⟨.member members key :: rest, .value⟩
    | _ => none
  | .commaOrClose, .comma =>
    match st.stack with
    | .array _ :: _ => some { st with expect := .value }
    | .object _ :: _ => some { st with expect := .key }
    | _ => none
  | .commaOrClose, .closeArray => closeArray st.stack
  | .commaOrClose, .closeObject => closeObject st.stack
  | _, _ => none

/-- The reader run over tokens. -/
def run (st : State) (ts : List Token) : Option State :=
  ts.foldl (fun st t => st.bind (step · t)) (some st)

end Reader

/-- The document of a text; `none` if it is not well-formed. -/
def read? (text : String) : Option Json := do
  match ← Reader.run {} (← tokens? text) with
  | ⟨_, .done v⟩ => some v
  | _ => none

end ServerLink.Json
