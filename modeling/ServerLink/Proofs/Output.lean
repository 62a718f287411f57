import ServerLink.Output

/-!
# What is written

Pieces of text are written one after the other. All of them are if there is room for them together;
otherwise the output has those in front of the first one that goes beyond its limit
(`writeAll_of_room`, `writeAll_of_no_room`). What is written may be flushed out a number of times
(`flush_of_can`, `flush_of_cannot`).
-/

namespace ServerLink.Output

/-- A text can be added without going beyond the limit. -/
def HasRoom (o : Output) (text : String) : Prop :=
  ∀ limit, o.limit = some limit → (o.text ++ text).utf8ByteSize ≤ limit

/-- The output with a text behind what it has. -/
def add (o : Output) (text : String) : Output := { o with text := o.text ++ text }

/-- The output can be flushed so many times. -/
def CanFlush (o : Output) (count : Nat) : Prop := ∀ n, o.flushes = some n → count ≤ n

/-- The output after it was flushed so many times. -/
def flushed (o : Output) (count : Nat) : Output := { o with flushes := o.flushes.map (· - count) }

variable {o : Output} {p text more : String} {ps : List String} {n m : Nat}

@[simp] theorem add_empty (o : Output) : o.add "" = o := by simp [add]

@[simp] theorem add_add (o : Output) (text more : String) :
    (o.add text).add more = o.add (text ++ more) := by
  simp [add, String.append_assoc]

theorem hasRoom_add : (o.add text).HasRoom more ↔ o.HasRoom (text ++ more) := by
  simp only [HasRoom, add, String.append_assoc]

/-- Where there is room for a text there is room for the beginning of it. -/
theorem HasRoom.of_append (h : o.HasRoom (text ++ more)) : o.HasRoom text := by
  intro limit hl
  have := h limit hl
  simp only [String.utf8ByteSize_append] at this ⊢
  omega

theorem write_of_room (h : o.HasRoom p) : o.write p = (.ok (), o.add p) := by
  refine if_neg fun full => ?_
  obtain ⟨limit, hl, hlt⟩ := (Option.any_eq_true _ _).mp full
  exact Nat.not_lt.mpr (h limit hl) (of_decide_eq_true hlt)

theorem write_of_no_room (h : ¬ o.HasRoom p) :
    o.write p = (.error (.other "output closed"), o) := by
  refine if_pos ((Option.any_eq_true _ _).mpr ?_)
  simp only [HasRoom, Classical.not_forall, Nat.not_le] at h
  obtain ⟨limit, hl, hlt⟩ := h
  exact ⟨limit, hl, decide_eq_true hlt⟩

theorem writeAll_of_room (h : o.HasRoom (String.join ps)) :
    o.writeAll ps = (.ok (), o.add (String.join ps)) := by
  induction ps generalizing o with
  | nil => simp [writeAll]
  | cons p ps ih =>
    rw [String.join_cons] at h
    rw [writeAll, write_of_room h.of_append, String.join_cons, ← add_add]
    exact ih (hasRoom_add.mpr h)

theorem writeAll_of_no_room (hne : ps ≠ []) (h : ¬ o.HasRoom (String.join ps)) :
    ∃ before p after, ps = before ++ p :: after ∧
      o.writeAll ps = (.error (.other "output closed"), o.add (String.join before)) := by
  induction ps generalizing o with
  | nil => exact absurd rfl hne
  | cons p ps ih =>
    by_cases first : o.HasRoom p
    · rw [String.join_cons, ← hasRoom_add] at h
      have others : ps ≠ [] := by
        rintro rfl
        simp [hasRoom_add, first] at h
      obtain ⟨before, p', after, rfl, hw⟩ := ih others h
      refine ⟨p :: before, p', after, rfl, ?_⟩
      rw [writeAll, write_of_room first, String.join_cons, ← add_add]
      exact hw
    · refine ⟨[], p, ps, rfl, ?_⟩
      rw [writeAll, write_of_no_room first]
      simp

/-! ## Flushing -/

@[simp] theorem flushed_zero (o : Output) : o.flushed 0 = o := by
  obtain ⟨text, limit, flushes⟩ := o
  cases flushes <;> rfl

@[simp] theorem flushed_flushed (o : Output) (n m : Nat) :
    (o.flushed n).flushed m = o.flushed (n + m) := by
  simp [flushed, Function.comp_def, Nat.sub_add_eq]

theorem add_flushed (o : Output) (n : Nat) (text : String) :
    (o.flushed n).add text = (o.add text).flushed n := rfl

theorem hasRoom_flushed : (o.flushed n).HasRoom text ↔ o.HasRoom text := Iff.rfl

theorem canFlush_add : (o.add text).CanFlush n ↔ o.CanFlush n := Iff.rfl

theorem canFlush_zero (o : Output) : o.CanFlush 0 := fun _ _ => Nat.zero_le _

/-- An output that could be flushed so many times may still be flushed more often. -/
theorem canFlush_flushed (h : o.CanFlush n) : (o.flushed n).CanFlush m ↔ o.CanFlush (n + m) := by
  constructor
  · intro hm k hk
    have hn := h k hk
    have hleft := hm (k - n) (by simp [flushed, hk])
    omega
  · intro hm k hk
    obtain ⟨l, hl, rfl⟩ := Option.map_eq_some_iff.1 hk
    have hall := hm l hl
    omega

theorem flush_of_can (h : o.CanFlush 1) : o.flush = (.ok (), o.flushed 1) := by
  obtain ⟨text, limit, flushes⟩ := o
  match flushes with
  | none => rfl
  | some 0 => exact absurd (h 0 rfl) (by decide)
  | some (n + 1) => rfl

theorem flush_of_cannot (h : ¬ o.CanFlush 1) :
    o.flush = (.error (.other "output closed"), o) ∧ o.flushed 1 = o := by
  obtain ⟨text, limit, flushes⟩ := o
  match flushes with
  | none => exact absurd (fun _ hk => by cases hk) h
  | some 0 => exact ⟨rfl, rfl⟩
  | some (n + 1) => exact absurd (fun _ hk => Option.some.inj hk ▸ Nat.le_add_left 1 n) h

end ServerLink.Output
