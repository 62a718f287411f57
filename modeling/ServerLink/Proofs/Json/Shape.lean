import ServerLink.Json.Shape

/-!
# What typed records are read from

For each decoder, the values it can read and what it makes of them. The fields of a record are read
from an object by name and from an array by position (`record_eq_ok`); the lemmas on `one`, `pair`
and `map` then say field by field what a record's value is.
-/

namespace ServerLink.Json

/-! ## Results -/

theorem map_eq_ok {ε α β : Type} {x : Except ε α} {f : α → β} {b : β} :
    x.map f = .ok b ↔ ∃ a, x = .ok a ∧ f a = b := by
  cases x <;> simp [Except.map]

theorem bind_eq_ok {ε α β : Type} {x : Except ε α} {f : α → Except ε β} {b : β} :
    x >>= f = .ok b ↔ ∃ a, x = .ok a ∧ f a = .ok b := by
  cases x <;> simp [bind, Except.bind]

theorem mapError_eq_ok {ε ε' α : Type} {x : Except ε α} {f : ε → ε'} {a : α} :
    x.mapError f = .ok a ↔ x = .ok a := by
  cases x with
  | error e => constructor <;> intro h <;> cases h
  | ok b => constructor <;> intro h <;> cases h <;> rfl

/-! ## Decoders -/

namespace Decoder

@[simp] theorem any_eq_ok {v a : Json} : any v = .ok a ↔ v = a := by simp [any]

@[simp] theorem string_eq_ok {v : Json} {s : String} : string v = .ok s ↔ v = .string s := by
  cases v <;> simp [string]

theorem integer_eq_ok {low high i : Int} {expected : Kind} {v : Json} :
    integer low high expected v = .ok i ↔
      (∃ h, v = .number (.integer i h)) ∧ low ≤ i ∧ i < high := by
  unfold integer
  split
  · rename_i j hj
    split
    · rename_i hr
      constructor
      · intro h
        cases h
        exact ⟨⟨hj, rfl⟩, hr⟩
      · rintro ⟨⟨_, he⟩, -⟩
        cases he
        rfl
    · rename_i hr
      constructor
      · intro h
        cases h
      · rintro ⟨⟨_, he⟩, hr'⟩
        cases he
        exact absurd hr' hr
  · rename_i hno
    constructor
    · intro h
      cases h
    · rintro ⟨⟨h, rfl⟩, -⟩
      exact absurd rfl (hno i h)

/-- An unsigned integer of 64 bits is a whole number that is not negative. -/
@[simp] theorem unsigned_eq_ok {v : Json} {n : Nat} :
    unsigned 64 v = .ok n ↔ v.toNat? = some n := by
  rw [unsigned, map_eq_ok]
  constructor
  · rintro ⟨i, hi, rfl⟩
    obtain ⟨⟨hrange, rfl⟩, h0, -⟩ := integer_eq_ok.1 hi
    simp [toNat?, Number.toNat?, h0]
  · intro h
    cases v with
    | number x =>
      cases x with
      | integer i hrange =>
        by_cases h0 : 0 ≤ i
        · exact ⟨i, integer_eq_ok.2 ⟨⟨hrange, rfl⟩, h0, hrange.2⟩,
            by simpa [toNat?, Number.toNat?, h0] using h⟩
        · simp [toNat?, Number.toNat?, h0] at h
      | float x => simp [toNat?, Number.toNat?] at h
    | _ => simp [toNat?] at h

theorem option_eq_ok {α : Type} {d : Decoder α} {v : Json} {a : Option α} :
    option d v = .ok a ↔
      (v = .null ∧ a = none) ∨ v ≠ .null ∧ ∃ b, d v = .ok b ∧ a = some b := by
  unfold option
  split
  · simp [eq_comm]
  · rename_i hnull
    rw [map_eq_ok]
    simp [show v ≠ .null from hnull, eq_comm]

end Decoder

/-! ## Fields -/

namespace Fields

variable {α β : Type} {look : String → Option Json} {tooFew : Nat → ShapeError} {index : Nat}
  {items rest : List Json}

/-- A field is read from its member, or has its value for an absent one. -/
@[simp] theorem one_ofMembers_eq_ok {name : String} {absent : Option α} {read : Decoder α} {a : α} :
    (one name absent read).ofMembers look = .ok a ↔
      (∃ v, look name = some v ∧ read v = .ok a) ∨ (look name = none ∧ absent = some a) := by
  simp only [one]
  cases look name with
  | none => cases absent <;> simp
  | some v => simp [mapError_eq_ok]

/-- A field is read from the next item, or has its value for an absent one. -/
@[simp] theorem one_ofItems_eq_ok {name : String} {absent : Option α} {read : Decoder α} {a : α} :
    (one name absent read).ofItems tooFew index items = .ok (a, rest) ↔
      (∃ v, items = v :: rest ∧ read v = .ok a) ∨
        (items = [] ∧ rest = [] ∧ absent = some a) := by
  simp only [one]
  cases items with
  | nil => cases absent <;> simp [and_comm, eq_comm]
  | cons v items =>
    rw [map_eq_ok]
    constructor
    · rintro ⟨b, hb, he⟩
      cases he
      exact .inl ⟨v, rfl, hb⟩
    · rintro (⟨w, he, hw⟩ | ⟨he, -⟩)
      · cases he
        exact ⟨a, hw, rfl⟩
      · cases he

@[simp] theorem pair_ofMembers_eq_ok {f : Fields α} {g : Fields β} {p : α × β} :
    (f.pair g).ofMembers look = .ok p ↔
      f.ofMembers look = .ok p.1 ∧ g.ofMembers look = .ok p.2 := by
  simp only [pair]
  cases f.ofMembers look <;> cases g.ofMembers look <;> simp [Prod.ext_iff]

@[simp] theorem pair_ofItems_eq_ok {f : Fields α} {g : Fields β} {p : α × β} :
    (f.pair g).ofItems tooFew index items = .ok (p, rest) ↔
      ∃ middle, f.ofItems tooFew index items = .ok (p.1, middle) ∧
        g.ofItems tooFew (index + f.names.length) middle = .ok (p.2, rest) := by
  simp only [pair, bind_eq_ok]
  constructor
  · rintro ⟨⟨a, middle⟩, hf, ⟨b, last⟩, hg, he⟩
    cases he
    exact ⟨middle, hf, hg⟩
  · rintro ⟨middle, hf, hg⟩
    exact ⟨_, hf, _, hg, rfl⟩

@[simp] theorem map_ofMembers_eq_ok {make : α → β} {f : Fields α} {b : β} :
    (f.map make).ofMembers look = .ok b ↔ ∃ a, f.ofMembers look = .ok a ∧ make a = b := by
  rw [map, map_eq_ok]

@[simp] theorem map_ofItems_eq_ok {make : α → β} {f : Fields α} {b : β} :
    (f.map make).ofItems tooFew index items = .ok (b, rest) ↔
      ∃ a, f.ofItems tooFew index items = .ok (a, rest) ∧ make a = b := by
  rw [map, map_eq_ok]
  constructor
  · rintro ⟨⟨a, left⟩, hf, he⟩
    cases he
    exact ⟨a, hf, rfl⟩
  · rintro ⟨a, hf, rfl⟩
    exact ⟨_, hf, rfl⟩

end Fields

/-! ## Records -/

variable {α : Type} {name : String} {fields : Fields α} {a : α}

@[simp] theorem record_object_eq_ok {ms : List (String × Json)} :
    record name fields (.object ms) = .ok a ↔ fields.ofMembers (ms.lookup ·) = .ok a := by
  rw [record]
  exact mapError_eq_ok

@[simp] theorem record_array_eq_ok {items : List Json} :
    record name fields (.array items) = .ok a ↔
      fields.ofItems (.tooFew · name fields.names.length) 0 items = .ok (a, []) := by
  rw [record, bind_eq_ok]
  constructor
  · rintro ⟨⟨b, rest⟩, hf, he⟩
    cases rest with
    | nil => cases he; exact hf
    | cons v rest => cases he
  · exact fun hf => ⟨_, hf, rfl⟩

/-- A record is read from an object by name, and from an array by position. -/
theorem record_eq_ok {v : Json} : record name fields v = .ok a ↔
    (∃ ms, v = .object ms ∧ fields.ofMembers (ms.lookup ·) = .ok a) ∨
    ∃ items, v = .array items ∧
      fields.ofItems (.tooFew · name fields.names.length) 0 items = .ok (a, []) := by
  cases v with
  | object ms => simp
  | array items => simp
  | _ => simp [record]

end ServerLink.Json
