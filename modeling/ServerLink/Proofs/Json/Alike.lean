import ServerLink.Proofs.Json.Shape

/-!
# Values that a reader takes for the same

A record is read from the members that its fields name (`Schema`), so objects that show the same
under these names are read alike (`record_agree`), well or badly, whatever other members they have.
Where a field is a record itself, its values may be alike in turn.
-/

namespace ServerLink.Json

/-- The names of a record's fields, each with what two of its values have in common that are read
alike. -/
abbrev Schema := List (String × (Json → Json → Prop))

/-- The items of two arrays, as long as there are fields for them, and the same items after that. -/
inductive ItemsAlike : Schema → List Json → List Json → Prop
  | done (vs : List Json) : ItemsAlike [] vs vs
  | short (s : Schema) : ItemsAlike s [] []
  | cons {f : String × (Json → Json → Prop)} {s : Schema} {v v' : Json} {vs vs' : List Json}
      (h : f.2 v v') (hs : ItemsAlike s vs vs') : ItemsAlike (f :: s) (v :: vs) (v' :: vs')

/-- Two values that differ in nothing but members that the schema does not name. -/
inductive Alike (s : Schema) : Json → Json → Prop
  | same (v : Json) : Alike s v v
  | object {ms ms' : List (String × Json)}
      (h : ∀ f ∈ s, Option.Rel f.2 (ms.lookup f.1) (ms'.lookup f.1)) :
      Alike s (.object ms) (.object ms')
  | array {vs vs' : List Json} (h : ItemsAlike s vs vs') : Alike s (.array vs) (.array vs')

/-- Two readings that fail with the same error, or come to what is so related. -/
inductive Agree {ε α : Type} (R : α → α → Prop) : Except ε α → Except ε α → Prop
  | ok {a b : α} (h : R a b) : Agree R (.ok a) (.ok b)
  | error (e : ε) : Agree R (.error e) (.error e)

variable {ε α β : Type} {R : α → α → Prop} {Q : β → β → Prop} {s t : Schema} {v v' : Json}

namespace Agree

variable {x y : Except ε α}

theorem refl (hR : ∀ a, R a a) (x : Except ε α) : Agree R x x := by
  cases x with
  | ok a => exact .ok (hR a)
  | error e => exact .error e

theorem eq (h : Agree Eq x y) : x = y := by
  cases h with
  | ok h => rw [h]
  | error e => rfl

theorem cases (h : Agree R x y) :
    (∃ a b, x = .ok a ∧ y = .ok b ∧ R a b) ∨ ∃ e, x = .error e ∧ y = .error e := by
  cases h with
  | ok h => exact .inl ⟨_, _, rfl, rfl, h⟩
  | error e => exact .inr ⟨e, rfl, rfl⟩

theorem map (h : Agree R x y) {f g : α → β} (hf : ∀ a b, R a b → Q (f a) (g b)) :
    Agree Q (x.map f) (y.map g) := by
  cases h with
  | ok h => exact .ok (hf _ _ h)
  | error e => exact .error e

theorem mapError (h : Agree R x y) {ε' : Type} (f : ε → ε') :
    Agree R (x.mapError f) (y.mapError f) := by
  cases h with
  | ok h => exact .ok h
  | error e => exact .error (f e)

theorem bind (h : Agree R x y) {f g : α → Except ε β} (hf : ∀ a b, R a b → Agree Q (f a) (g b)) :
    Agree Q (x >>= f) (y >>= g) := by
  cases h with
  | ok h => exact hf _ _ h
  | error e => exact .error e

end Agree

theorem ItemsAlike.length_eq {vs vs' : List Json} (h : ItemsAlike s vs vs') :
    vs.length = vs'.length := by
  induction h with
  | done vs => rfl
  | short s => rfl
  | cons _ _ ih => rw [List.length_cons, List.length_cons, ih]

/-- What may be null is read alike, if it is where it is not null. -/
theorem Alike.option {d : Decoder α} (h : Alike s v v') (hd : d v = d v') :
    Decoder.option d v = Decoder.option d v' := by
  cases h with
  | same v => rfl
  | object _ => rw [Decoder.option, Decoder.option, hd] <;> simp
  | array _ => rw [Decoder.option, Decoder.option, hd] <;> simp

/-! ## Fields -/

/-- Fields with these names come to what is so related, if their values are as the schema has it. -/
structure Fields.Respects (f : Fields α) (s : Schema) (R : α → α → Prop) : Prop where
  names : f.names = s.map (·.1)
  ofMembers : ∀ look look' : String → Option Json,
    (∀ p ∈ s, Option.Rel p.2 (look p.1) (look' p.1)) →
    Agree R (f.ofMembers look) (f.ofMembers look')
  ofItems : ∀ more tooFew index items items', ItemsAlike (s ++ more) items items' →
    Agree (fun x y => R x.1 y.1 ∧ ItemsAlike more x.2 y.2)
      (f.ofItems tooFew index items) (f.ofItems tooFew index items')

namespace Fields.Respects

theorem one {name : String} {absent : Option α} {read : Decoder α} {ρ : Json → Json → Prop}
    (hread : ∀ v v', ρ v v' → Agree R (read v) (read v')) (habsent : ∀ a, absent = some a → R a a) :
    (Fields.one name absent read).Respects [(name, ρ)] R where
  names := rfl
  ofMembers look look' h := by
    have hname : Option.Rel ρ (look name) (look' name) := h _ (List.mem_singleton_self _)
    simp only [Fields.one]
    generalize look name = v, look' name = v' at hname
    cases hname with
    | some h => exact (hread _ _ h).mapError _
    | none =>
      cases absent with
      | some a => exact .ok (habsent a rfl)
      | none => exact .error _
  ofItems more tooFew index items items' h := by
    cases h with
    | short =>
      cases absent with
      | some a => exact .ok ⟨habsent a rfl, .short more⟩
      | none => exact .error _
    | cons h hs =>
      simp only [Fields.one]
      exact (hread _ _ h).map fun _ _ hab => ⟨hab, hs⟩

theorem pair {f : Fields α} {g : Fields β} (hf : f.Respects s R) (hg : g.Respects t Q) :
    (f.pair g).Respects (s ++ t) fun x y => R x.1 y.1 ∧ Q x.2 y.2 where
  names := by rw [List.map_append, ← hf.names, ← hg.names]; rfl
  ofMembers look look' h := by
    have first := hf.ofMembers look look' fun p hp => h p (List.mem_append_left _ hp)
    have second := hg.ofMembers look look' fun p hp => h p (List.mem_append_right _ hp)
    simp only [Fields.pair]
    generalize f.ofMembers look = x, f.ofMembers look' = x' at first
    generalize g.ofMembers look = y, g.ofMembers look' = y' at second
    cases first with
    | ok hab =>
      cases second with
      | ok hcd => exact .ok ⟨hab, hcd⟩
      | error p => exact .error p
    | error p =>
      cases second with
      | ok hcd => exact .error p
      | error q => exact .error _
  ofItems more tooFew index items items' h := by
    rw [List.append_assoc] at h
    refine (hf.ofItems _ tooFew index items items' h).bind fun a b hab => ?_
    refine (hg.ofItems more tooFew _ a.2 b.2 hab.2).bind fun c d hcd => ?_
    exact .ok ⟨⟨hab.1, hcd.1⟩, hcd.2⟩

theorem map {f : Fields α} (hf : f.Respects s R) {make : α → β}
    (hmake : ∀ a b, R a b → Q (make a) (make b)) : (f.map make).Respects s Q where
  names := hf.names
  ofMembers look look' h := (hf.ofMembers look look' h).map hmake
  ofItems more tooFew index items items' h :=
    (hf.ofItems more tooFew index items items' h).map fun _ _ hab => ⟨hmake _ _ hab.1, hab.2⟩

/-- A field of any kind sees no difference between equal values. -/
theorem plain (name : String) (absent : Option α) (read : Decoder α) :
    (Fields.one name absent read).Respects [(name, Eq)] Eq :=
  .one (fun _ _ h => h ▸ .refl (fun _ => rfl) _) fun _ _ => rfl

/-- A field that may be null and is a record itself sees no difference between values that this
record sees none between. -/
theorem nested {read : Decoder α} (name : String)
    (hread : ∀ v v', Alike s v v' → read v = read v') :
    (Fields.nullable name read).Respects [(name, Alike s)] Eq :=
  .one (fun v v' h => h.option (hread v v' h) ▸ .refl (fun _ => rfl) _) fun _ _ => rfl

end Fields.Respects

/-- **Records are read alike from values that are alike.** -/
theorem record_agree {name : String} {f : Fields α} (hf : f.Respects s R) (hR : ∀ a, R a a)
    (h : Alike s v v') : Agree R (record name f v) (record name f v') := by
  cases h with
  | same v => exact .refl hR _
  | object h => exact (hf.ofMembers _ _ h).mapError _
  | @array vs vs' h =>
    have hitems := hf.ofItems [] (.tooFew · name f.names.length) 0 vs vs' (by rwa [List.append_nil])
    refine hitems.bind fun (a, left) (b, left') ⟨hab, hleft⟩ => ?_
    cases hleft with
    | done left =>
      rw [h.length_eq]
      cases left with
      | nil => exact .ok hab
      | cons v left => exact .error _
    | short => exact .ok hab

theorem record_alike {name : String} {f : Fields α} (hf : f.Respects s Eq) (h : Alike s v v') :
    record name f v = record name f v' := (record_agree hf (fun _ => rfl) h).eq

/-- A member that the schema names is the same in both objects. -/
theorem Alike.lookup_eq {ms ms' : List (String × Json)} {name : String}
    (h : Alike s (.object ms) (.object ms')) (hs : (name, Eq) ∈ s) :
    ms'.lookup name = ms.lookup name := by
  cases h with
  | same => rfl
  | object h =>
    have hname : Option.Rel Eq (ms.lookup name) (ms'.lookup name) := h _ hs
    generalize ms.lookup name = v, ms'.lookup name = v' at hname
    cases hname with
    | some h => rw [h]
    | none => rfl

end ServerLink.Json
