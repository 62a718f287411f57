import ServerLink.Disk.Tree
import ServerLink.Proofs.Table

/-!
# One place of a tree

What stands at a place of a tree decides what stands at every place below it (`get?_append`). Once
something has been put at a place, a change below the place is the change of what was put there
(`alter_put`), so that nothing beside the place is touched.
-/

namespace ServerLink.Node

variable {es : List (String × Node)} {name : String} {n m : Node} {p q : Place}

/-! ## Entries -/

theorem setEntry_some_of_lookup (h : (es.lookup name).isSome) :
    setEntry es name (some n) = es.map fun e => if e.1 = name then (e.1, n) else e := by
  simp only [setEntry, h, if_true]
  exact List.map_congr_left fun e _ => by split <;> simp_all

@[simp] theorem lookup_setEntry_some : (setEntry es name (some n)).lookup name = some n := by
  cases h : es.lookup name with
  | none => simp [setEntry, h, List.lookup_append]
  | some c =>
    rw [setEntry_some_of_lookup (by rw [h]; rfl)]
    exact (Table.lookup_mapIf (p := (· = name)) (g := fun _ => n)).trans (by simp [h])

theorem lookup_setEntry_ne {other : String} (h : other ≠ name) (new : Option Node) :
    (setEntry es name new).lookup other = es.lookup other := by
  cases new with
  | none => exact Table.lookup_erase_ne h
  | some n =>
    by_cases hk : (es.lookup name).isSome
    · rw [setEntry_some_of_lookup hk]
      refine (Table.lookup_mapIf (p := (· = name)) (g := fun _ => n)).trans ?_
      simp [h]
    · rw [setEntry, if_neg hk, List.lookup_append]
      simp [List.lookup_cons, beq_eq_false_iff_ne.2 h]

/-- An entry that is there is set to what was set last. -/
theorem setEntry_setEntry (h : (es.lookup name).isSome) (new : Option Node) :
    setEntry (setEntry es name (some m)) name new = setEntry es name new := by
  cases new with
  | none =>
    rw [setEntry_some_of_lookup h]
    simp only [setEntry, Table.erase, List.filter_map]
    conv_rhs => rw [← List.map_id (List.filter _ es)]
    have hkeys : ((fun e : String × Node => !(e.1 == name)) ∘
        fun e => if e.1 = name then (e.1, m) else e) = fun e => !(e.1 == name) := by
      funext e
      simp only [Function.comp_apply]
      split <;> simp_all
    rw [hkeys]
    refine List.map_congr_left fun e he => ?_
    have hne : e.1 ≠ name := by simpa using (List.mem_filter.1 he).2
    rw [if_neg hne, id]
  | some n =>
    rw [setEntry_some_of_lookup (by rw [lookup_setEntry_some]; rfl), setEntry_some_of_lookup h,
      setEntry_some_of_lookup h, List.map_map]
    refine List.map_congr_left fun e _ => ?_
    simp only [Function.comp_apply]
    by_cases hk : e.1 = name
    · rw [if_pos hk, if_pos hk, if_pos hk]
    · rw [if_neg hk, if_neg hk]

theorem mem_setEntry {new : Option Node} {e : String × Node} (h : e ∈ setEntry es name new) :
    e ∈ es ∨ e.1 = name ∧ new = some e.2 := by
  cases new with
  | none => exact .inl (List.mem_filter.1 h).1
  | some n =>
    by_cases hk : (es.lookup name).isSome
    · rw [setEntry_some_of_lookup hk] at h
      obtain ⟨x, hx, rfl⟩ := List.mem_map.1 h
      split
      · exact .inr ⟨by assumption, rfl⟩
      · exact .inl hx
    · rw [setEntry, if_neg hk, List.mem_append, List.mem_singleton] at h
      rcases h with h | rfl
      · exact .inl h
      · exact .inr ⟨rfl, rfl⟩

/-! ## Places -/

theorem get?_append (n : Node) (p q : Place) : n.get? (p ++ q) = (n.get? p).bind (·.get? q) := by
  induction p generalizing n with
  | nil => rfl
  | cons name names ih =>
    simp only [List.cons_append, get?, Option.bind_assoc]
    exact congrArg _ (funext ih)

theorem get?_snoc (n : Node) (p : Place) (name : String) :
    n.get? (p ++ [name]) = (n.get? p).bind (·.child? name) := by
  rw [get?_append]
  exact congrArg _ (funext fun c => by simp [get?])

/-- What stands somewhere below the top stands in an entry of a directory. -/
theorem directory_of_get?_cons {names : Place} (h : (n.get? (name :: names)).isSome) :
    ∃ a es c, n = .directory a es ∧ es.lookup name = some c ∧ (c.get? names).isSome := by
  match n with
  | .directory a es =>
    simp only [get?, child?, entries] at h
    match hc : es.lookup name with
    | some c => exact ⟨a, es, c, rfl, hc, by simpa [hc] using h⟩
    | none => simp [hc] at h
  | .file _ _ | .link _ => simp [get?, child?, entries] at h

theorem alter_cons_cons {a : Attributes} {c : Node} {next : String} {names : Place}
    {change : Option Node → Option Node} (h : es.lookup name = some c) :
    (Node.directory a es).alter change (name :: next :: names) =
      .directory a (setEntry es name (some (c.alter change (next :: names)))) := by
  rw [alter]
  · simp only [h]
  · simp

/-- On the way to a place stands what stood there, with the place below it changed. -/
theorem get?_alter_above (n : Node) (change : Option Node → Option Node) (hq : q ≠ []) :
    (n.alter change (p ++ q)).get? p = (n.get? p).map (·.alter change q) := by
  induction p generalizing n with
  | nil => rfl
  | cons name names ih =>
    obtain ⟨next, rest, hrest⟩ := List.exists_cons_of_ne_nil (l := names ++ q) (by simp [hq])
    match n with
    | .file _ _ | .link _ => simp [alter, get?, child?, entries]
    | .directory a es =>
      cases hc : es.lookup name with
      | none =>
        rw [List.cons_append, hrest, alter]
        · simp [hc, get?, child?, entries]
        · simp
      | some c =>
        rw [List.cons_append, hrest, alter_cons_cons hc, ← hrest, get?, get?]
        simpa [child?, entries, hc] using ih c

theorem child?_alter_ne (a : Attributes) (es : List (String × Node))
    (change : Option Node → Option Node) {other : String} (h : other ≠ name) (names : Place) :
    ((directory a es).alter change (name :: names)).child? other = es.lookup other := by
  cases names with
  | nil => simp [alter, child?, entries, lookup_setEntry_ne h]
  | cons next names =>
    cases hc : es.lookup name with
    | none =>
      rw [alter]
      · simp [hc, child?, entries]
      · simp
    | some c => simp [alter_cons_cons hc, child?, entries, lookup_setEntry_ne h]

/-- Nothing beside the way to a place and off the place changes with it. -/
theorem get?_alter_outside (n : Node) (change : Option Node → Option Node) (hp : ¬ p <+: q)
    (hq : ¬ q <+: p) : (n.alter change p).get? q = n.get? q := by
  induction p generalizing n q with
  | nil => exact absurd List.nil_prefix hp
  | cons name names ih =>
    match q, n with
    | [], _ => exact absurd List.nil_prefix hq
    | _ :: _, .file _ _ | _ :: _, .link _ => simp [alter]
    | other :: others, .directory a es =>
      by_cases hne : other = name
      · subst hne
        simp only [List.cons_prefix_cons, true_and] at hp hq
        cases names with
        | nil => exact absurd List.nil_prefix hp
        | cons next names =>
          cases hc : es.lookup other with
          | none =>
            rw [alter]
            · simp [hc]
            · simp
          | some c =>
            rw [alter_cons_cons hc, get?, get?]
            simpa [child?, entries, hc] using ih c hp hq
      · rw [get?, get?, child?_alter_ne a es change hne]
        rfl

theorem attributes?_alter (n : Node) (change : Option Node → Option Node) (hq : q ≠ []) :
    (n.alter change q).attributes? = n.attributes? := by
  unfold alter
  split
  · contradiction
  · rfl
  · split <;> rfl
  · rfl
  · rfl

/-- A change below the top leaves the top what it was. -/
theorem isDirectory_alter (n : Node) (change : Option Node → Option Node) (hq : q ≠ []) :
    (n.alter change q).isDirectory = n.isDirectory := by
  unfold alter
  split
  · contradiction
  · rfl
  · split <;> rfl
  · rfl
  · rfl

/-- What has been put where something stands is found there, with what is below it. -/
theorem get?_put (h : (n.get? p).isSome) (q : Place) :
    (n.alter (fun _ => some m) p).get? (p ++ q) = m.get? q := by
  induction p generalizing n with
  | nil => rfl
  | cons name names ih =>
    obtain ⟨a, es, c, rfl, hc, hnames⟩ := directory_of_get?_cons h
    cases names with
    | nil => simp [alter, get?, child?, entries]
    | cons next names =>
      rw [alter_cons_cons hc, List.cons_append, get?]
      simpa [child?, entries] using ih hnames

/-- A change below where something has been put is a change of what was put there. -/
theorem alter_put (h : (n.get? p).isSome) (change : Option Node → Option Node) (hq : q ≠ []) :
    (n.alter (fun _ => some m) p).alter change (p ++ q) =
      n.alter (fun _ => some (m.alter change q)) p := by
  induction p generalizing n with
  | nil => rfl
  | cons name names ih =>
    obtain ⟨a, es, c, rfl, hc, hnames⟩ := directory_of_get?_cons h
    have hsome : (es.lookup name).isSome := by rw [hc]; rfl
    cases names with
    | nil =>
      obtain ⟨next, rest, rfl⟩ := List.exists_cons_of_ne_nil hq
      have hput : (Node.directory a es).alter (fun _ => some m) [name] =
          .directory a (setEntry es name (some m)) := by simp [alter]
      rw [hput, List.singleton_append, alter_cons_cons lookup_setEntry_some,
        setEntry_setEntry hsome]
      simp [alter]
    | cons next names =>
      rw [alter_cons_cons hc, List.cons_append, List.cons_append,
        alter_cons_cons lookup_setEntry_some, setEntry_setEntry hsome, ← List.cons_append,
        ih hnames, alter_cons_cons hc]

/-- What is put where something was put replaces it. -/
theorem put_put (h : (n.get? p).isSome) {m' : Node} :
    (n.alter (fun _ => some m) p).alter (fun _ => some m') p = n.alter (fun _ => some m') p := by
  induction p generalizing n with
  | nil => rfl
  | cons name names ih =>
    obtain ⟨a, es, c, rfl, hc, hnames⟩ := directory_of_get?_cons h
    have hsome : (es.lookup name).isSome := by rw [hc]; rfl
    cases names with
    | nil => simp [alter, setEntry_setEntry hsome]
    | cons next names =>
      rw [alter_cons_cons hc, alter_cons_cons lookup_setEntry_some, setEntry_setEntry hsome,
        ih hnames, alter_cons_cons hc]

end ServerLink.Node
