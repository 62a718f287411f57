import ServerLink.Job.Watch
import ServerLink.Proofs.Table

/-!
# Facts about waiting for jobs

A watch waits for each job with one call at most, keeps no report of a job that a call waits for,
and never more reports than there is room for (`Watch.Inv`). A call that it gets leaves it when its
slot ends (`ledger_attach`, `ledger_forget`).
-/

namespace ServerLink

/-! ## How slots ended -/

/-- How the slot of a call ended, in these settlements. -/
def endsOf (id : Nat) (ends : List Settlement) : List Slot.End :=
  (ends.filter (·.call = id)).map (·.how)

section
variable {id : Nat}

@[simp] theorem endsOf_nil : endsOf id [] = [] := rfl

@[simp] theorem endsOf_append (s t : List Settlement) :
    endsOf id (s ++ t) = endsOf id s ++ endsOf id t := by simp [endsOf]

@[simp] theorem endsOf_filled (call : Nat) (o : Outcome) :
    endsOf id [.filled call o] = if call = id then [.filled o] else [] := by
  by_cases h : call = id <;> simp [endsOf, Settlement.filled, h]

@[simp] theorem endsOf_abandoned (call : Nat) :
    endsOf id [.abandoned call] = if call = id then [.abandoned] else [] := by
  by_cases h : call = id <;> simp [endsOf, Settlement.abandoned, h]

theorem mem_endsOf {e : Slot.End} {ends : List Settlement} :
    e ∈ endsOf id ends ↔ ⟨id, e⟩ ∈ ends := by
  simp only [endsOf, List.mem_map, List.mem_filter, decide_eq_true_eq]
  constructor
  · rintro ⟨s, ⟨hs, rfl⟩, rfl⟩; exact hs
  · intro h; exact ⟨_, ⟨h, rfl⟩, rfl⟩

theorem length_endsOf (ends : List Settlement) :
    (endsOf id ends).length = (ends.map (·.call)).count id := by
  rw [endsOf, List.length_map, List.count, List.countP_map, ← List.countP_eq_length_filter]
  refine List.countP_congr fun s _ => ?_
  simp

end

namespace Job.Watch

variable {w : Watch}

/-- A call that is to wait for a job finds its last report, or takes the job's place. -/
theorem attach_cases (w : Watch) (job call : Nat) :
    (∃ e, w.early.find? (·.id = job) = some e ∧ w.attach job call =
      ({ w with early := w.early.eraseP (·.id = job) }, [.filled call e.outcome])) ∨
    (w.early.find? (·.id = job) = none ∧ w.attach job call =
      ({ w with waiting := Table.insert w.waiting job call },
        ((w.waiting.lookup job).map Settlement.abandoned).toList)) := by
  unfold Watch.attach
  split
  · rename_i e he
    exact .inl ⟨e, he, rfl⟩
  · rename_i he
    exact .inr ⟨he, rfl⟩

theorem earlyCapacity_pos : 0 < earlyCapacity := by decide

/-! ## The invariant -/

/-- What holds of a watch at any time. -/
structure Inv (w : Watch) : Prop where
  once : (Table.keys w.waiting).Nodup
  early : ∀ e ∈ w.early, w.waiting.lookup e.id = none
  room : w.early.length ≤ earlyCapacity

namespace Inv

theorem empty : Inv {} := ⟨List.nodup_nil, by simp, Nat.zero_le _⟩

variable (h : w.Inv)
include h

theorem attach (job call : Nat) : (w.attach job call).1.Inv := by
  rcases attach_cases w job call with ⟨e, -, hs⟩ | ⟨hn, hs⟩ <;> rw [hs]
  · exact ⟨h.once, fun x hx => h.early x (List.mem_of_mem_eraseP hx),
      Nat.le_trans List.length_eraseP_le h.room⟩
  · refine ⟨Table.nodup_keys_insert h.once, fun x hx => ?_, h.room⟩
    have hne : x.id ≠ job := by simpa using List.find?_eq_none.1 hn x hx
    show (Table.insert w.waiting job call).lookup x.id = none
    rw [Table.lookup_insert_ne hne]
    exact h.early x hx

theorem remember {e : Report} (he : w.waiting.lookup e.id = none) : (w.remember e).Inv := by
  refine ⟨h.once, fun x hx => ?_, ?_⟩
  · rcases List.mem_append.1 hx with hx | hx
    · split at hx
      · exact h.early x (List.mem_of_mem_drop hx)
      · exact h.early x hx
    · rw [List.mem_singleton.1 hx]
      exact he
  · have := h.room
    have hpos := earlyCapacity_pos
    simp only [Watch.remember, List.length_append, List.length_singleton]
    by_cases hl : w.early.length = earlyCapacity
    · rw [if_pos hl, List.length_drop]; omega
    · rw [if_neg hl]; omega

theorem report (e : Report) : (w.report e).1.Inv := by
  unfold Watch.report
  split
  · split
    · refine ⟨Table.nodup_keys_erase h.once, fun x hx => ?_, h.room⟩
      by_cases hx' : x.id = e.id
      · rw [hx']
        exact Table.lookup_erase_self
      · exact (Table.lookup_erase_ne hx').trans (h.early x hx)
    · rename_i hl
      exact h.remember hl
  · exact h

theorem forget (call : Nat) : (w.forget call).1.Inv := by
  refine ⟨h.once.sublist (List.filter_sublist.map _), fun x hx => ?_, h.room⟩
  exact List.filter_sublist.lookup_eq_none (h.early x hx)

theorem step (e : Event) : (w.step e).1.Inv := by
  cases e with
  | attach job call => exact h.attach job call
  | report e => exact h.report e
  | forget call => exact h.forget call
  | failAll reason => exact empty

end Inv

/-! ## The ledger of one event -/

theorem ledger_attach (hw : (Table.keys w.waiting).Nodup) (job call id : Nat) :
    (Table.values (w.attach job call).1.waiting).count id +
      (endsOf id (w.attach job call).2).length =
    (Table.values w.waiting).count id + [call].count id := by
  rw [length_endsOf]
  rcases attach_cases w job call with ⟨e, -, h⟩ | ⟨-, h⟩ <;> rw [h]
  · rfl
  · simp only [Table.values_insert, List.count_append]
    cases hl : w.waiting.lookup job with
    | none =>
      rw [Table.erase_of_not_mem (Table.lookup_eq_none.1 hl)]
      simp
    | some old =>
      rw [Table.count_values hw hl]
      simp only [Option.map_some, Option.toList_some, List.map_cons, List.map_nil,
        Settlement.abandoned]
      omega

theorem ledger_forget (w : Watch) (call id : Nat) :
    (Table.values (w.forget call).1.waiting).count id + (endsOf id (w.forget call).2).length =
      (Table.values w.waiting).count id := by
  rw [length_endsOf]
  simp only [Watch.forget, Settlement.abandoned, List.map_map, Table.values]
  induction w.waiting with
  | nil => rfl
  | cons e t ih =>
    by_cases he : e.2 = call <;> simp [he, List.count_cons] at ih ⊢ <;> omega

end Job.Watch

end ServerLink
