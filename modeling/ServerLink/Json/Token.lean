import ServerLink.Json.Basic
import ServerLink.Text.Hex

/-!
# Tokens of a document

The lexer reads a text one character at a time; what it has read so far is the list of tokens,
the latest first, and the token it is inside of. A run of characters that are neither blank nor
punctuation is one word, which has to be a literal.
-/

namespace ServerLink.Json

inductive Token where
  | openArray
  | closeArray
  | openObject
  | closeObject
  | comma
  | colon
  | scalar (value : Json)
  deriving DecidableEq

namespace Lexer

/-- The token the lexer is inside of. -/
inductive Inside where
  /-- Between tokens. -/
  | none
  /-- In a literal, whose characters are kept in reverse. -/
  | word (chars : List Char)
  /-- In a string, after the characters of its value so far. -/
  | string (value : String)
  /-- After a backslash in a string. -/
  | escape (value : String)
  /-- In a `\u` escape: the digits still to come and the number so far. `high` is the first half
  of a surrogate pair, if one came before. -/
  | unicode (value : String) (high : Option Nat) (left : Nat) (number : Nat)
  /-- After the first half of a surrogate pair, where a backslash has to follow. -/
  | half (value : String) (high : Nat)
  /-- After that backslash, where the letter u has to follow. -/
  | halfEscape (value : String) (high : Nat)

structure State where
  tokens : List Token := []
  inside : Inside := .none

/-- The value of a bare literal. -/
def literal? (word : List Char) : Option Json :=
  if word = ['n', 'u', 'l', 'l'] then some .null
  else if word = ['t', 'r', 'u', 'e'] then some (.bool true)
  else if word = ['f', 'a', 'l', 's', 'e'] then some (.bool false)
  else (Number.read? word).map .number

def punctuation? : Char → Option Token
  | '[' => some .openArray
  | ']' => some .closeArray
  | '\x7b' => some .openObject
  | '\x7d' => some .closeObject
  | ',' => some .comma
  | ':' => some .colon
  | _ => none

def isBlank (c : Char) : Bool := c = ' ' || c = '\n' || c = '\r' || c = '\t'

/-- What a one-letter escape stands for. -/
def escaped? : Char → Option Char
  | '"' => some '"'
  | '\\' => some '\\'
  | '/' => some '/'
  | 'b' => some '\x08'
  | 'f' => some '\x0c'
  | 'n' => some '\n'
  | 'r' => some '\r'
  | 't' => some '\t'
  | _ => none

/-- Where a finished `\u` escape leaves the lexer: a code point on its own, the first half of a
pair, or the second half of one. A half on its own is refused. -/
def unicodeEnd (value : String) (high : Option Nat) (n : Nat) : Option Inside :=
  match high with
  | none =>
    if 0xD800 ≤ n ∧ n < 0xDC00 then some (.half value n)
    else if 0xDC00 ≤ n ∧ n < 0xE000 then none
    else some (.string (value.push (Char.ofNat n)))
  | some h =>
    if 0xDC00 ≤ n ∧ n < 0xE000 then
      some (.string (value.push (Char.ofNat (0x10000 + (h - 0xD800) * 0x400 + (n - 0xDC00)))))
    else none

/-- One character outside of a token. -/
def start (tokens : List Token) (c : Char) : State :=
  if isBlank c then ⟨tokens, .none⟩
  else match punctuation? c with
    | some t => ⟨t :: tokens, .none⟩
    | none => if c = '"' then ⟨tokens, .string ""⟩ else ⟨tokens, .word [c]⟩

/-- The tokens after the end of a word. -/
def endWord (tokens : List Token) (word : List Char) : Option (List Token) :=
  (literal? word.reverse).map (.scalar · :: tokens)

/-- One character; `none` where no document goes on like this. -/
def step (st : State) (c : Char) : Option State :=
  match st with
  | ⟨tokens, .none⟩ => some (start tokens c)
  | ⟨tokens, .word w⟩ =>
    if isBlank c || (punctuation? c).isSome || c = '"' then
      (endWord tokens w).map (start · c)
    else some ⟨tokens, .word (c :: w)⟩
  | ⟨tokens, .string v⟩ =>
    if c = '"' then some ⟨.scalar (.string v) :: tokens, .none⟩
    else if c = '\\' then some ⟨tokens, .escape v⟩
    else if c < ' ' then none
    else some ⟨tokens, .string (v.push c)⟩
  | ⟨tokens, .escape v⟩ =>
    if c = 'u' then some ⟨tokens, .unicode v none 4 0⟩
    else (escaped? c).map fun d => ⟨tokens, .string (v.push d)⟩
  | ⟨tokens, .unicode v high left n⟩ => do
    let n := 16 * n + (← Text.hexDigit? c)
    if left ≤ 1 then return ⟨tokens, ← unicodeEnd v high n⟩
    else return ⟨tokens, .unicode v high (left - 1) n⟩
  | ⟨tokens, .half v high⟩ => if c = '\\' then some ⟨tokens, .halfEscape v high⟩ else none
  | ⟨tokens, .halfEscape v high⟩ =>
    if c = 'u' then some ⟨tokens, .unicode v (some high) 4 0⟩ else none

/-- The tokens in reading order, if the text ends between tokens. -/
def finish : State → Option (List Token)
  | ⟨tokens, .none⟩ => some tokens.reverse
  | ⟨tokens, .word w⟩ => (endWord tokens w).map List.reverse
  | _ => none

/-- The lexer run over a text. -/
def run (text : String) : Option State :=
  text.foldl (fun st c => st.bind (step · c)) (some {})

end Lexer

/-- The tokens of a text. -/
def tokens? (text : String) : Option (List Token) := Lexer.run text >>= Lexer.finish

end ServerLink.Json
