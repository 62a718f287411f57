import ServerLink.Table
import Mathlib.Data.List.Nodup
import Mathlib.Data.List.Perm.Basic

/-!
# Facts about finite tables

How `erase` and `insert` show in a lookup, and that `erase` takes out the one entry of its key
(`perm_erase`).
-/

namespace ServerLink.Table

variable {κ α : Type} {t : Table κ α} {j k : κ} {a : α}

theorem mem_values : a ∈ values t ↔ ∃ k, (k, a) ∈ t := by simp [values]

variable {p : κ → Prop} [DecidablePred p] {g : α → α}

/-- A change of the values of some keys leaves the keys alone. -/
theorem keys_mapIf : keys (t.map fun e => if p e.1 then (e.1, g e.2) else e) = keys t := by
  rw [keys, List.map_map]
  refine List.map_congr_left fun e _ => ?_
  simp only [Function.comp_apply]
  split <;> rfl

theorem mem_mapIf {e : κ × α} (h : e ∈ t.map fun e => if p e.1 then (e.1, g e.2) else e) :
    ∃ a, (e.1, a) ∈ t ∧ e.2 = if p e.1 then g a else a := by
  obtain ⟨x, hx, rfl⟩ := List.mem_map.1 h
  refine ⟨x.2, ?_, ?_⟩ <;> split <;> simp_all

variable [BEq κ]

theorem erase_sublist : (erase t k).Sublist t := List.filter_sublist

theorem nodup_keys_erase (h : (keys t).Nodup) : (keys (erase t k)).Nodup :=
  h.sublist (erase_sublist.map _)

theorem keys_insert : keys (insert t k a) = keys (erase t k) ++ [k] := by simp [insert, keys]

theorem values_insert : values (insert t k a) = values (erase t k) ++ [a] := by
  simp [insert, values]

variable [LawfulBEq κ]

/-! ## Lookups -/

theorem lookup_isSome : (t.lookup k).isSome ↔ k ∈ keys t := by
  induction t with
  | nil => simp [keys]
  | cons e t ih =>
    obtain ⟨i, b⟩ := e
    by_cases h : k = i
    · subst h; simp [keys]
    · simp only [List.lookup_cons, beq_eq_false_iff_ne.2 h, keys, List.map_cons, List.mem_cons, h,
        false_or]
      exact ih

theorem lookup_eq_none : t.lookup k = none ↔ k ∉ keys t := by
  rw [← lookup_isSome, Option.not_isSome_iff_eq_none]

theorem mem_of_lookup (h : t.lookup k = some a) : (k, a) ∈ t := by
  obtain ⟨l, r, rfl, -⟩ := List.lookup_eq_some_iff.1 h
  simp

theorem lookup_of_mem (hn : (keys t).Nodup) (h : (k, a) ∈ t) : t.lookup k = some a := by
  induction t with
  | nil => simp at h
  | cons e t ih =>
    obtain ⟨i, b⟩ := e
    simp only [keys, List.map_cons, List.nodup_cons] at hn
    rcases List.mem_cons.1 h with he | h
    · cases he; simp
    · have hki : k ≠ i := fun he => hn.1 (he ▸ List.mem_map.2 ⟨(k, a), h, rfl⟩)
      rw [List.lookup_cons, beq_eq_false_iff_ne.2 hki]
      exact ih hn.2 h

theorem lookup_mapIf : (t.map fun e => if p e.1 then (e.1, g e.2) else e).lookup k =
    (t.lookup k).map fun a => if p k then g a else a := by
  induction t with
  | nil => rfl
  | cons e t ih =>
    obtain ⟨i, b⟩ := e
    by_cases h : k = i
    · subst h
      by_cases hp : p k <;> simp [hp]
    · have hki := beq_eq_false_iff_ne.2 h
      by_cases hp : p i <;> simp only [List.map_cons, hp, ↓reduceIte, List.lookup_cons, hki] <;>
        exact ih

/-! ## Erasing -/

theorem mem_erase {e : κ × α} : e ∈ erase t k ↔ e ∈ t ∧ e.1 ≠ k := by simp [erase]

theorem erase_of_not_mem (h : k ∉ keys t) : erase t k = t := by
  refine List.filter_eq_self.2 fun e he => ?_
  have : e.1 ≠ k := fun hk => h (hk ▸ List.mem_map.2 ⟨e, he, rfl⟩)
  simpa using this

theorem keys_erase : k ∉ keys (erase t k) := by
  intro h
  obtain ⟨e, he, hk⟩ := List.mem_map.1 h
  exact (mem_erase.1 he).2 hk

theorem lookup_erase_self : (erase t k).lookup k = none := lookup_eq_none.2 keys_erase

theorem lookup_erase_ne (h : j ≠ k) : (erase t k).lookup j = t.lookup j := by
  induction t with
  | nil => rfl
  | cons e t ih =>
    obtain ⟨i, b⟩ := e
    by_cases hi : i = k
    · subst hi
      simp only [erase, List.filter_cons, beq_self_eq_true, Bool.not_true, Bool.false_eq_true,
        ↓reduceIte, List.lookup_cons, beq_eq_false_iff_ne.2 h]
      exact ih
    · simp only [erase, List.filter_cons, beq_eq_false_iff_ne.2 hi, Bool.not_false, ↓reduceIte,
        List.lookup_cons]
      cases j == i
      · exact ih
      · rfl

/-- A key's entry is one entry beside those that `erase` leaves. -/
theorem perm_erase (hn : (keys t).Nodup) (h : t.lookup k = some a) :
    t.Perm ((k, a) :: erase t k) := by
  induction t with
  | nil => simp at h
  | cons e t ih =>
    obtain ⟨i, b⟩ := e
    simp only [keys, List.map_cons, List.nodup_cons] at hn
    by_cases hi : i = k
    · subst hi
      have hb : b = a := by simpa using h
      have ht : erase ((i, b) :: t) i = t := by
        have := erase_of_not_mem (t := t) hn.1
        simpa [erase] using this
      rw [ht, hb]
    · have ht : erase ((i, b) :: t) k = (i, b) :: erase t k := by simp [erase, hi]
      rw [ht]
      have hk : t.lookup k = some a := by
        simpa [List.lookup_cons, beq_eq_false_iff_ne.2 (Ne.symm hi)] using h
      exact ((ih hn.2 hk).cons _).trans (.swap _ _ _)

theorem count_keys (hn : (keys t).Nodup) (h : t.lookup k = some a) :
    (keys t).count j = (keys (erase t k)).count j + [k].count j := by
  have := ((perm_erase hn h).map (·.1)).count_eq j
  simpa [keys, List.count_cons] using this

theorem count_values [BEq α] [LawfulBEq α] {b : α} (hn : (keys t).Nodup)
    (h : t.lookup k = some a) :
    (values t).count b = (values (erase t k)).count b + [a].count b := by
  have := ((perm_erase hn h).map (·.2)).count_eq b
  simpa [values, List.count_cons] using this

/-! ## Inserting -/

theorem lookup_insert_self : (insert t k a).lookup k = some a := by
  rw [insert, List.lookup_append, lookup_erase_self]
  simp

theorem lookup_insert_ne (h : j ≠ k) : (insert t k a).lookup j = t.lookup j := by
  rw [insert, List.lookup_append, lookup_erase_ne h]
  simp [List.lookup_cons, beq_eq_false_iff_ne.2 h]

theorem mem_insert {e : κ × α} : e ∈ insert t k a ↔ (e ∈ t ∧ e.1 ≠ k) ∨ e = (k, a) := by
  simp [insert, mem_erase]

theorem nodup_keys_insert (h : (keys t).Nodup) : (keys (insert t k a)).Nodup := by
  rw [keys_insert, List.nodup_append]
  refine ⟨nodup_keys_erase h, by simp, fun x hx y hy he => ?_⟩
  rw [List.mem_singleton] at hy
  subst he hy
  exact keys_erase hx

end ServerLink.Table
