import ServerLink.Json.Number

/-!
# JSON values

An object's members are kept sorted by key with no key twice: `Json.ofMembers` sorts what was
read and keeps the last of several members with one key. The order of keys is by code point.
-/

namespace ServerLink

inductive Json where
  | null
  | bool (value : Bool)
  | number (value : Json.Number)
  | string (value : String)
  | array (items : List Json)
  | object (members : List (String × Json))
deriving Inhabited

namespace Json

mutual

/-- Equality of values is decidable, member by member. -/
def decEq : (a b : Json) → Decidable (a = b)
  | .null, .null => .isTrue rfl
  | .bool x, .bool y => if h : x = y then .isTrue (h ▸ rfl) else .isFalse (by simpa using h)
  | .number x, .number y => if h : x = y then .isTrue (h ▸ rfl) else .isFalse (by simpa using h)
  | .string x, .string y => if h : x = y then .isTrue (h ▸ rfl) else .isFalse (by simpa using h)
  | .array x, .array y =>
    match decEqItems x y with
    | .isTrue h => .isTrue (h ▸ rfl)
    | .isFalse h => .isFalse (by simpa using h)
  | .object x, .object y =>
    match decEqMembers x y with
    | .isTrue h => .isTrue (h ▸ rfl)
    | .isFalse h => .isFalse (by simpa using h)
  | .null, .bool _ | .null, .number _ | .null, .string _ | .null, .array _ | .null, .object _
  | .bool _, .null | .bool _, .number _ | .bool _, .string _ | .bool _, .array _ | .bool _, .object _
  | .number _, .null | .number _, .bool _ | .number _, .string _ | .number _, .array _
  | .number _, .object _
  | .string _, .null | .string _, .bool _ | .string _, .number _ | .string _, .array _
  | .string _, .object _
  | .array _, .null | .array _, .bool _ | .array _, .number _ | .array _, .string _
  | .array _, .object _
  | .object _, .null | .object _, .bool _ | .object _, .number _ | .object _, .string _
  | .object _, .array _ => .isFalse (by simp)

def decEqItems : (a b : List Json) → Decidable (a = b)
  | [], [] => .isTrue rfl
  | [], _ :: _ => .isFalse (by simp)
  | _ :: _, [] => .isFalse (by simp)
  | x :: xs, y :: ys =>
    match decEq x y, decEqItems xs ys with
    | .isTrue h, .isTrue t => .isTrue (h ▸ t ▸ rfl)
    | .isFalse h, _ => .isFalse (by simp [h])
    | _, .isFalse t => .isFalse (by simp [t])

def decEqMembers : (a b : List (String × Json)) → Decidable (a = b)
  | [], [] => .isTrue rfl
  | [], _ :: _ => .isFalse (by simp)
  | _ :: _, [] => .isFalse (by simp)
  | (k, x) :: xs, (l, y) :: ys =>
    if hk : k = l then
      match decEq x y, decEqMembers xs ys with
      | .isTrue h, .isTrue t => .isTrue (hk ▸ h ▸ t ▸ rfl)
      | .isFalse h, _ => .isFalse (by simp [h])
      | _, .isFalse t => .isFalse (by simp [t])
    else .isFalse (by simp [hk])

end

instance : DecidableEq Json := decEq

def isNull : Json → Bool
  | .null => true
  | _ => false

/-- Keeps the last of neighbouring members with one key. -/
def lastOfEach (ms : List (String × Json)) : List (String × Json) :=
  (ms.foldl (fun kept m =>
    match kept with
    | [] => [m]
    | k :: rest => if k.1 = m.1 then m :: rest else m :: kept) []).reverse

/-- The object of members in reading order. -/
def ofMembers (ms : List (String × Json)) : Json :=
  .object (lastOfEach (ms.mergeSort fun a b => a.1 ≤ b.1))

/-- The member with this key, if the value is an object that has one. -/
def get? (key : String) : Json → Option Json
  | .object ms => ms.lookup key
  | _ => none

def toString? : Json → Option String
  | .string s => some s
  | _ => none

/-- The value as an unsigned 64-bit integer. -/
def toNat? : Json → Option Nat
  | .number n => n.toNat?
  | _ => none

def ofNat (n : Nat) : Json := .number (.ofNat n)

/-- The integer as a value, cut to the range of 64 bits. -/
def ofInt (i : Int) : Json :=
  match Number.ofInt? i with
  | some n => .number n
  | none => .null

end Json

end ServerLink
