import ServerLink.Log.Pattern.Reader

/-!
# Fields in filters

A filter may ask for spans with a field, perhaps one of some value. The value is a number, or a
pattern for the text of the value.
-/

namespace ServerLink.Log.Field

/-- Behind an exponent's sign, if there is one. -/
def unsigned : List Char → List Char
  | '+' :: cs | '-' :: cs => cs
  | cs => cs

/-- Digits alone, and one at least. -/
def isDigits (cs : List Char) : Bool := !cs.isEmpty && cs.all Char.isDigit

/-- The end of a number from its exponent on, which may be absent. -/
def isExponent : List Char → Bool
  | [] => true
  | c :: cs => (c = 'e' || c = 'E') && isDigits (unsigned cs)

/-- Digits with a point among them or not, and perhaps an exponent. -/
def isDecimal (cs : List Char) : Bool :=
  let whole := cs.takeWhile Char.isDigit
  let rest := cs.drop whole.length
  let behind := if rest.head? = some '.' then rest.drop 1 else rest
  let fraction := if rest.head? = some '.' then behind.takeWhile Char.isDigit else []
  !(whole ++ fraction).isEmpty && isExponent (behind.drop fraction.length)

/-- The names of numbers that have no digits. -/
def numberNames : List String := ["INF", "INFINITY", "NAN"]

/-- A number, with a sign or without one. -/
def isNumber (cs : List Char) : Bool :=
  let cs := unsigned cs
  isDecimal cs || numberNames.contains (String.ofList (cs.map Char.toUpper))

/-- The value that a field is asked to have, if any: what stands between its first two equals
signs. -/
def value? (field : List Char) : Option (List Char) :=
  match field.dropWhile (· ≠ '=') with
  | _ :: cs => some (cs.takeWhile (· ≠ '='))
  | [] => none

def isWellFormed (field : List Char) : Bool :=
  !field.isEmpty && (value? field).all fun v => isNumber v || Pattern.isWellFormed v

end ServerLink.Log.Field
