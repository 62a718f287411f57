import ServerLink.Proofs.Subscription.Registry

/-!
# The history of subscriptions

Which subscriptions a run opens can be read off its events (`openings`), and so can which of them
are open after it: those that no later event ends (`Event.ends`, `stillOpen`). The fanout holds just
these, in order (`subscribers_run`).
-/

namespace ServerLink

/-- A longer history has a moment that nothing of some kind follows if it had one before and the
new event is not of that kind, or the new event is the moment. -/
theorem exists_split_since_concat {α : Type} {P : List α → α → Prop} {Q : α → Prop} {es : List α}
    {x : α} :
    (∃ before e after, es ++ [x] = before ++ e :: after ∧ P before e ∧ ∀ y ∈ after, Q y) ↔
      (∃ before e after, es = before ++ e :: after ∧ P before e ∧ ∀ y ∈ after, Q y) ∧ Q x ∨
        P es x := by
  constructor
  · rintro ⟨before, e, after, h, hp, hq⟩
    rcases List.eq_nil_or_concat' after with rfl | ⟨after, last, rfl⟩
    · obtain ⟨rfl, hlast⟩ := List.append_inj' h rfl
      cases hlast
      exact .inr hp
    · rw [← List.cons_append, ← List.append_assoc] at h
      obtain ⟨rfl, hlast⟩ := List.append_inj' h rfl
      cases hlast
      exact .inl ⟨⟨before, e, after, rfl, hp, fun y hy => hq y (by simp [hy])⟩, hq x (by simp)⟩
  · rintro (⟨⟨before, e, after, rfl, hp, hq⟩, hx⟩ | hp)
    · refine ⟨before, e, after ++ [x], by simp, hp, fun y hy => ?_⟩
      rcases List.mem_append.1 hy with hy | hy
      · exact hq y hy
      · rwa [List.mem_singleton.1 hy]
    · exact ⟨es, x, [], rfl, hp, by simp⟩

/-- A longer history has a moment of some kind if it had one before, or the new event is one. -/
theorem exists_split_concat {α : Type} {P : List α → α → Prop} {es : List α} {x : α} :
    (∃ before e after, es ++ [x] = before ++ e :: after ∧ P before e) ↔
      (∃ before e after, es = before ++ e :: after ∧ P before e) ∨ P es x := by
  simpa using exists_split_since_concat (P := P) (Q := fun _ => True)

namespace Fanout

/-- The event ends this subscription: its entry is taken out, by its handle, by a closer or from
outside, its handle is dropped, or all subscriptions are ended. -/
def Event.ends (s : Subscription) : Event → Bool
  | .remove s' | .act s' .close | .act s' .discard => s' = s
  | .closeAll => true
  | .register _ _ | .deliver _ _ | .act _ _ => false

/-- The subscriptions that a run opens, each with what comes after it. -/
def openings (lastKey : Nat) : List Event → List (Subscription × List Event)
  | [] => []
  | .register collection _ :: es =>
    (⟨collection, lastKey + 1⟩, es) :: openings (lastKey + 1) es
  | .closeAll :: _ => []
  | .deliver _ _ :: es | .remove _ :: es | .act _ _ :: es => openings lastKey es

/-- Nothing has ended an opened subscription so far. -/
def isLeft (opening : Subscription × List Event) : Bool := !opening.2.any (·.ends opening.1)

/-- The subscriptions that are open after a run. -/
def stillOpen (es : List Event) : List Subscription :=
  ((openings 0 es).filter isLeft).map (·.1)

/-- The subscriptions that a run opens from here. -/
def opened (f : Fanout) (es : List Event) : List (Subscription × List Event) :=
  if f.closed then [] else openings f.lastKey es

variable {f : Fanout}

/-! ## One event -/

@[simp] theorem run_nil (f : Fanout) : f.run [] = f := rfl

@[simp] theorem run_cons (f : Fanout) (e : Event) (es : List Event) :
    f.run (e :: es) = (f.step e).1.run es := rfl

theorem run_append (f : Fanout) (es es' : List Event) : f.run (es ++ es') = (f.run es).run es' :=
  List.foldl_append

theorem Inv.run (h : f.Inv) (es : List Event) : (f.run es).Inv := by
  induction es generalizing f with
  | nil => exact h
  | cons e es ih => exact ih (h.step e)

theorem lastKey_step (f : Fanout) (e : Event) : (f.step e).1.lastKey =
    match e with
    | .register _ _ => if f.closed then f.lastKey else f.lastKey + 1
    | _ => f.lastKey := by
  have hremove : ∀ s, (f.remove s).1.lastKey = f.lastKey := fun s => by
    rcases remove_cases f s with ⟨-, hs⟩ | ⟨-, hs⟩ <;> rw [hs]
    rfl
  have hread : ∀ s how, (f.read s how).1.lastKey = f.lastKey := fun s how => by
    unfold read
    split <;> rfl
  cases e with
  | register collection capacity =>
    cases hc : f.closed with
    | true => simp [step, register_closed hc]
    | false => simp [step, register_open hc]
  | remove s => exact hremove s
  | act s a =>
    cases a with
    | close | discard => exact hremove s
    | take | look | poll => exact hread s _
    | lieDown | stopWaiting => rfl
  | deliver _ _ | closeAll => rfl

theorem subscribers_setSubscribers (channels : Table String (List Nat)) (collection : String)
    (keys : List Nat) (c : String) :
    ((setSubscribers channels collection keys).lookup c).getD [] =
      if c = collection then keys else (channels.lookup c).getD [] := by
  unfold setSubscribers
  split
  · rename_i he
    split
    · rename_i hc
      rw [hc, Table.lookup_erase_self, List.isEmpty_iff.1 he]
      rfl
    · rename_i hc
      rw [Table.lookup_erase_ne hc]
  · split
    · rename_i hl
      rw [Table.lookup_mapIf (p := (· = collection)) (g := fun _ => keys)]
      split
      · rename_i hc
        obtain ⟨old, hold⟩ := Option.isSome_iff_exists.1 hl
        rw [hc, hold]
        rfl
      · simp
    · rename_i hl
      have hnone := Option.not_isSome_iff_eq_none.1 hl
      rw [List.lookup_append]
      split
      · rename_i hc
        rw [hc, hnone]
        simp
      · rename_i hc
        simp [List.lookup_cons, beq_eq_false_iff_ne.2 hc]

theorem subscribers_remove (f : Fanout) (s : Subscription) (c : String) :
    (f.remove s).1.subscribers c =
      (f.subscribers c).filter fun k => decide (s ≠ ⟨c, k⟩) := by
  have hother : s.collection ≠ c ∨ s.key ∉ f.subscribers c →
      (f.subscribers c).filter (fun k => decide (s ≠ ⟨c, k⟩)) = f.subscribers c := by
    intro h
    refine List.filter_eq_self.2 fun k hk => decide_eq_true ?_
    rintro rfl
    exact h.elim (fun hc => hc rfl) fun hn => hn hk
  rcases remove_cases f s with ⟨hn, hs⟩ | ⟨-, hs⟩ <;> rw [hs]
  · by_cases hc : s.collection = c
    · exact (hother (.inr (hc ▸ hn))).symm
    · exact (hother (.inl hc)).symm
  · show ((setSubscribers f.channels s.collection _).lookup c).getD [] = _
    rw [subscribers_setSubscribers]
    split
    · rename_i hc
      obtain ⟨collection, key⟩ := s
      subst hc
      refine List.filter_congr fun k _ => ?_
      simp [eq_comm]
    · rename_i hc
      exact (hother (.inl (Ne.symm hc))).symm

/-- The key that an event opens for this collection. -/
def opens (f : Fanout) (c : String) : Event → List Nat
  | .register collection _ => if f.closed = false ∧ collection = c then [f.lastKey + 1] else []
  | .deliver _ _ | .remove _ | .closeAll | .act _ _ => []

/-- An event leaves a collection's subscribers that it does not end, and may open one more. -/
theorem subscribers_step (f : Fanout) (e : Event) (c : String) : (f.step e).1.subscribers c =
    ((f.subscribers c).filter fun k => !e.ends ⟨c, k⟩) ++ f.opens c e := by
  have hsame : (f.subscribers c).filter (fun _ => !false) = f.subscribers c := by simp
  have hremove : ∀ s, (f.remove s).1.subscribers c =
      ((f.subscribers c).filter fun k => !decide (s = ⟨c, k⟩)) ++ [] := fun s => by
    rw [subscribers_remove, List.append_nil]
    exact List.filter_congr fun k _ => by simp
  have hread : ∀ s how, (f.read s how).1.subscribers c =
      ((f.subscribers c).filter fun _ => !false) ++ [] := fun s how => by
    rw [hsame, List.append_nil, read]
    split <;> rfl
  cases e with
  | register collection capacity =>
    simp only [Event.ends, hsame, opens]
    cases hc : f.closed with
    | true => simp [step, register_closed hc]
    | false =>
      simp only [step, register_open hc, true_and]
      show ((setSubscribers f.channels collection _).lookup c).getD [] = _
      rw [subscribers_setSubscribers]
      by_cases hcol : c = collection
      · subst hcol
        simp
      · rw [if_neg hcol, if_neg (Ne.symm hcol), List.append_nil]
        rfl
  | deliver collection v => simp only [Event.ends, hsame, opens, List.append_nil]; rfl
  | remove s => exact hremove s
  | closeAll => simp [Event.ends, opens, step, closeAll, subscribers, updateMailboxes]
  | act s a =>
    cases a with
    | close | discard => exact hremove s
    | take | look | poll => exact hread s _
    | lieDown | stopWaiting => simp only [Event.ends, hsame, opens, List.append_nil]; rfl

/-- A registration opens a subscription with a new key and an empty mailbox. -/
theorem register_fresh (h : f.Inv) {c : String} {capacity : Nat} {s : Subscription} {g : Fanout}
    (hreg : f.register c capacity = .ok (s, g)) :
    s.collection = c ∧ s.key = g.lastKey ∧ g.Inv ∧ g.mailbox? s = some (.ofCapacity capacity) ∧
      ∀ c', s.key ∈ g.subscribers c' ↔ c' = c := by
  cases hc : f.closed with
  | true => rw [register_closed hc] at hreg; cases hreg
  | false =>
    have hstep : (f.step (.register c capacity)).1 = g := by simp only [step, hreg]
    rw [register_open hc] at hreg
    have hs : s = ⟨c, f.lastKey + 1⟩ := by cases hreg; rfl
    have hlast : g.lastKey = f.lastKey + 1 := by cases hreg; rfl
    have hnone : f.mailboxes.lookup (f.lastKey + 1) = none :=
      Table.lookup_eq_none.2 fun hm => by
        have := h.stored _ hm
        omega
    subst hs
    refine ⟨rfl, hlast.symm, hstep ▸ h.step _, ?_, fun c' => ?_⟩
    · cases hreg
      simp [mailbox?, List.lookup_append, hnone]
    · have hold : f.lastKey + 1 ∉ f.subscribers c' := fun hm => by
        have := h.issued _ (mem_openKeys hm)
        omega
      rw [← hstep, subscribers_step, List.mem_append]
      by_cases hcol : c = c'
      · simp [opens, hc, hcol]
      · simp [opens, hold, hcol, Ne.symm hcol]

/-- A subscription that has been opened stays listed until an event ends it, and no longer. -/
theorem listed_step {s : Subscription} (hle : s.key ≤ f.lastKey) (e : Event) :
    s.key ∈ (f.step e).1.subscribers s.collection ↔
      s.key ∈ f.subscribers s.collection ∧ e.ends s = false := by
  have hnew : s.key ∉ f.opens s.collection e := by
    unfold opens
    split
    · split <;> simp
      omega
    all_goals simp
  rw [subscribers_step, List.mem_append, List.mem_filter]
  simp [hnew]

theorem lastKey_le_step (f : Fanout) (e : Event) : f.lastKey ≤ (f.step e).1.lastKey := by
  rw [lastKey_step]
  split
  · split <;> omega
  · exact Nat.le_refl _

/-! ## Runs -/

theorem listed_run {s : Subscription} (hle : s.key ≤ f.lastKey) (es : List Event) :
    s.key ∈ (f.run es).subscribers s.collection ↔
      s.key ∈ f.subscribers s.collection ∧ ∀ e ∈ es, e.ends s = false := by
  induction es generalizing f with
  | nil => simp
  | cons e es ih =>
    rw [run_cons, ih (Nat.le_trans hle (f.lastKey_le_step e)), listed_step hle,
      List.forall_mem_cons, and_assoc]

/-- The first event of a run opens what it opens, and the others go on from there. -/
theorem opened_cons (f : Fanout) (e : Event) (es : List Event) : f.opened (e :: es) =
    match e with
    | .register collection _ =>
      (if f.closed then [] else [(⟨collection, f.lastKey + 1⟩, es)]) ++ (f.step e).1.opened es
    | _ => (f.step e).1.opened es := by
  cases hc : f.closed <;> cases e <;> simp [opened, closed_step, lastKey_step, hc, openings]

/-- **The subscribers after a run** are those that were there before and those that the run opens,
without those that it ends. -/
theorem subscribers_run (f : Fanout) (es : List Event) (c : String) : (f.run es).subscribers c =
    ((f.subscribers c).filter fun k => !es.any (·.ends ⟨c, k⟩)) ++
      ((f.opened es).filter fun o => isLeft o && o.1.collection = c).map (·.1.key) := by
  induction es generalizing f with
  | nil => simp [opened, openings]
  | cons e es ih =>
    have hnew : ((f.opens c e).filter fun k => !es.any (·.ends ⟨c, k⟩)) ++
        (((f.step e).1.opened es).filter fun o => isLeft o && o.1.collection = c).map (·.1.key) =
        ((f.opened (e :: es)).filter fun o => isLeft o && o.1.collection = c).map (·.1.key) := by
      rw [opened_cons]
      cases e with
      | register collection capacity =>
        rw [List.filter_append, List.map_append]
        congr 1
        cases hc : f.closed with
        | true => simp [opens, hc]
        | false =>
          by_cases hcol : collection = c
          · subst hcol
            simp only [opens, hc, and_self, ↓reduceIte, Bool.false_eq_true, List.filter_singleton,
              isLeft, decide_true, Bool.and_true]
            cases es.any fun e => e.ends ⟨collection, f.lastKey + 1⟩ <;> rfl
          · simp [opens, hcol]
      | _ => rfl
    rw [run_cons, ih, subscribers_step, List.filter_append, List.filter_filter, List.append_assoc,
      hnew]
    congr 1
    refine List.filter_congr fun k _ => ?_
    simp [Bool.and_comm]

/-- The subscriptions that are open are those that have been opened and not ended since. -/
theorem subscribers_history (es : List Event) (c : String) : (run {} es).subscribers c =
    ((stillOpen es).filter fun s => s.collection = c).map (·.key) := by
  rw [subscribers_run, stillOpen, List.filter_map, List.map_map, List.filter_filter]
  simp only [opened, subscribers, Bool.false_eq_true, ↓reduceIte, List.lookup_nil, Option.getD_none,
    List.filter_nil, List.nil_append]
  congr 1
  refine List.filter_congr fun o _ => ?_
  simp [Bool.and_comm]

theorem mem_stillOpen {es : List Event} {s : Subscription} :
    s ∈ stillOpen es ↔ s.key ∈ (run {} es).subscribers s.collection := by
  rw [subscribers_history]
  constructor
  · intro hs
    exact List.mem_map.2 ⟨s, List.mem_filter.2 ⟨hs, by simp⟩, rfl⟩
  · intro hs
    obtain ⟨s', hs', hk⟩ := List.mem_map.1 hs
    obtain ⟨hs', hc⟩ := List.mem_filter.1 hs'
    have : s' = s := by
      cases s'; cases s
      simp_all
    rwa [this] at hs'

/-- As many subscriptions are open on a collection as its history says. -/
theorem count_history (es : List Event) (c : String) :
    (run {} es).count c = (stillOpen es).countP fun s => s.collection = c := by
  rw [count, subscribers_history, List.length_map, List.countP_eq_length_filter]

end Fanout

end ServerLink
