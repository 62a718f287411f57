import ServerLink.Message
import ServerLink.Proofs.Json.Shape

/-!
# What the fields of a record give

`Fields.Gives` is a property of whatever a record's fields are read as, be it from an object or from
an array. The lemmas `…_of_lookup` say what a field is read as from the member that it was written
as.
-/

namespace ServerLink.Json

/-! ## Numbers -/

theorem toNat?_ofNat {n : Nat} (h : n < 2 ^ 64) : (Json.ofNat n).toNat? = some n := by
  have hmod : n % 2 ^ 64 = n := Nat.mod_eq_of_lt h
  simp only [Json.ofNat, toNat?, Number.ofNat, Number.toNat?, hmod]
  simp

theorem lt_of_toNat? {v : Json} {n : Nat} (h : v.toNat? = some n) : n < 2 ^ 64 := by
  cases v with
  | number x =>
    cases x with
    | integer i hi =>
      simp only [toNat?, Number.toNat?] at h
      split at h
      · cases h
        omega
      · cases h
    | float x => cases h
  | _ => cases h

theorem signed_ofInt {i : Int} (h : -2 ^ 63 ≤ i ∧ i < 2 ^ 63) :
    Decoder.signed 64 (Json.ofInt i) = .ok i := by
  have hi : -2 ^ 63 ≤ i ∧ i < 2 ^ 64 := by omega
  rw [Json.ofInt, Number.ofInt?, dif_pos hi]
  exact Decoder.integer_eq_ok.2 ⟨⟨hi, rfl⟩, h⟩

theorem range_of_signed {v : Json} {i : Int} (h : Decoder.signed 64 v = .ok i) :
    -2 ^ 63 ≤ i ∧ i < 2 ^ 63 := (Decoder.integer_eq_ok.1 h).2

/-! ## What is read -/

/-- A value that may be left out, or left out as null. -/
def unlessNull (v : Option Json) : Option Json := v.filter (!·.isNull)

/-- Whatever these fields are read from, what is read has the property. -/
structure Fields.Gives {α : Type} (f : Fields α) (P : α → Prop) : Prop where
  ofMembers : ∀ {look a}, f.ofMembers look = .ok a → P a
  ofItems : ∀ {tooFew index items a rest}, f.ofItems tooFew index items = .ok (a, rest) → P a

variable {α β : Type} {P : α → Prop} {Q : β → Prop} {f : Fields α} {g : Fields β} {v : Json}
  {a : α} {look : String → Option Json} {name : String}

namespace Fields

theorem Gives.one {read : Decoder α} {absent : Option α} (h : ∀ v a, read v = .ok a → P a)
    (habsent : ∀ a, absent = some a → P a) : (one name absent read).Gives P := by
  refine ⟨fun ha => ?_, fun ha => ?_⟩
  · rcases one_ofMembers_eq_ok.1 ha with ⟨v, -, hv⟩ | ⟨-, he⟩
    · exact h v _ hv
    · exact habsent _ he
  · rcases one_ofItems_eq_ok.1 ha with ⟨v, -, hv⟩ | ⟨-, -, he⟩
    · exact h v _ hv
    · exact habsent _ he

theorem Gives.any (name : String) (read : Decoder α) (absent : Option α) :
    (Fields.one name absent read).Gives fun _ => True := ⟨fun _ => trivial, fun _ => trivial⟩

theorem Gives.unsigned (name : String) :
    (required name (Decoder.unsigned 64)).Gives fun n => n < 2 ^ 64 :=
  .one (fun _ _ h => lt_of_toNat? (Decoder.unsigned_eq_ok.1 h)) (by simp)

theorem Gives.signed (name : String) :
    (required name (Decoder.signed 64)).Gives fun i => -2 ^ 63 ≤ i ∧ i < 2 ^ 63 :=
  .one (fun _ _ h => range_of_signed h) (by simp)

theorem Gives.nullable {read : Decoder α} (h : ∀ v a, read v = .ok a → P a) :
    (nullable name read).Gives fun o => ∀ a, o = some a → P a := by
  refine .one (fun v o hv a ha => ?_) (by simp)
  rcases Decoder.option_eq_ok.1 hv with ⟨-, rfl⟩ | ⟨-, b, hb, rfl⟩
  · cases ha
  · cases ha
    exact h v _ hb

/-- A value that may be null is read as absent if it is. -/
theorem Gives.unlessNull (name : String) :
    (Fields.nullable name Decoder.any).Gives fun o => Json.unlessNull o = o := by
  refine .one (fun v o hv => ?_) (by simp [Json.unlessNull])
  rcases Decoder.option_eq_ok.1 hv with ⟨-, rfl⟩ | ⟨hnull, b, hb, rfl⟩
  · rfl
  · cases hb
    cases v <;> first | rfl | exact absurd rfl hnull

theorem Gives.pair (hf : f.Gives P) (hg : g.Gives Q) :
    (f.pair g).Gives fun p => P p.1 ∧ Q p.2 := by
  refine ⟨fun hp => ?_, fun hp => ?_⟩
  · obtain ⟨ha, hb⟩ := pair_ofMembers_eq_ok.1 hp
    exact ⟨hf.ofMembers ha, hg.ofMembers hb⟩
  · obtain ⟨middle, ha, hb⟩ := pair_ofItems_eq_ok.1 hp
    exact ⟨hf.ofItems ha, hg.ofItems hb⟩

theorem Gives.map {make : α → β} (hf : f.Gives P) (h : ∀ a, P a → Q (make a)) :
    (f.map make).Gives Q := by
  refine ⟨fun hb => ?_, fun hb => ?_⟩
  · obtain ⟨a, ha, rfl⟩ := map_ofMembers_eq_ok.1 hb
    exact h a (hf.ofMembers ha)
  · obtain ⟨a, ha, rfl⟩ := map_ofItems_eq_ok.1 hb
    exact h a (hf.ofItems ha)

theorem Gives.record (hf : f.Gives P) (h : record name f v = .ok a) : P a := by
  rcases record_eq_ok.1 h with ⟨ms, rfl, hms⟩ | ⟨items, rfl, hitems⟩
  · exact hf.ofMembers hms
  · exact hf.ofItems hitems

/-! ## Members that are read back -/

theorem one_of_lookup {read : Decoder α} {absent : Option α} (hv : look name = some v)
    (h : read v = .ok a) : (one name absent read).ofMembers look = .ok a :=
  one_ofMembers_eq_ok.2 (.inl ⟨v, hv, h⟩)

theorem optional_any_ofMembers :
    (optional name .null Decoder.any).ofMembers look = .ok ((look name).getD .null) := by
  rw [optional, one_ofMembers_eq_ok]
  cases look name <;> simp

theorem nullable_any_ofMembers_eq :
    (nullable name Decoder.any).ofMembers look = .ok (unlessNull (look name)) := by
  rw [nullable, one_ofMembers_eq_ok]
  cases look name with
  | none => exact .inr ⟨rfl, rfl⟩
  | some v => refine .inl ⟨v, rfl, ?_⟩; cases v <;> rfl

/-- A field that may be absent, whose values are written as other things than null. -/
theorem nullable_of_lookup {read : Decoder α} {write : α → Json} {o : Option α}
    (hv : look name = o.map write) (hnull : ∀ a, write a ≠ .null)
    (h : ∀ a, read (write a) = .ok a) : (nullable name read).ofMembers look = .ok o := by
  rw [nullable, one_ofMembers_eq_ok, hv]
  cases o with
  | none => exact .inr ⟨rfl, rfl⟩
  | some a => exact .inl ⟨_, rfl, Decoder.option_eq_ok.2 (.inr ⟨hnull a, a, h a, rfl⟩)⟩

end Fields

theorem lookup_member? (n k : String) (v : Option Json) :
    (member? n v).lookup k = if k = n then v else none := by
  cases v with
  | none => simp [member?]
  | some v =>
    by_cases h : k = n
    · simp [member?, h]
    · simp [member?, h, List.lookup_cons, beq_eq_false_iff_ne.2 h]

end ServerLink.Json
