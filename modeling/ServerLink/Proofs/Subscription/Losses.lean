import Mathlib.Data.List.Induction
import ServerLink.Proofs.Subscription.Product

/-!
# What a mailbox loses

The values delivered to a subscription leave its mailbox in the order in which they came, taken out by
its reads or pushed out by later ones (`Account`). A value is known by its position among those
delivered: the oldest one in the mailbox is at the position that counts what is gone, and it is the
one that a delivery to a full mailbox pushes out (`PushesOut`, `losses_are_the_oldest`).
-/

namespace ServerLink.Fanout

/-- The value that an event delivers to a collection. -/
def Event.valueFor? (collection : String) : Event → Option Json
  | .deliver c v => if c = collection then some v else none
  | .register _ _ | .remove _ | .closeAll | .act _ _ => none

/-- The values delivered to a subscription, up to the first event that ends it. -/
def deliveredTo (s : Subscription) (es : List Event) : List Json :=
  (es.takeWhile fun e => !e.ends s).filterMap (·.valueFor? s.collection)

/-- The values that a subscriber takes out of its mailbox in a run, in order. -/
def takenOut (f : Fanout) (s : Subscription) (es : List Event) : List Json :=
  (f.findsAll s es).flatMap (·.values)

/-- After a run, an event delivers a value to the subscription and finds its mailbox full; the oldest
value in it is the one that was delivered after `position` others. -/
def PushesOut (f : Fanout) (s : Subscription) (capacity : Nat) (es : List Event) (e : Event)
    (position : Nat) : Prop :=
  ∃ v m, e = .deliver s.collection v ∧ (f.run es).mailbox? s = some m ∧ m.closed = false ∧
    m.values.length = capacity ∧ position = (f.takenOut s es).length + m.dropped

/-- A delivery in this run has pushed out the value at this position. -/
def HasPushedOut (f : Fanout) (s : Subscription) (capacity : Nat) (es : List Event)
    (position : Nat) : Prop :=
  ∃ before e after, es = before ++ e :: after ∧ f.PushesOut s capacity before e position

/-- The values at other positions, in order. -/
def without (values : List Json) (positions : List Nat) : List Json :=
  (values.zipIdx.filter fun e => e.2 ∉ positions).map (·.1)

/-- What has become of the values delivered to a queue: some are gone, those at the positions `lost`
pushed out and the others taken out, and the rest are queued. -/
structure Ledger (q : Queue) (delivered taken gone : List Json) (lost : List Nat) : Prop where
  queued : delivered = gone ++ q.values
  kept : taken = without gone lost
  count : gone.length = taken.length + lost.length
  within : ∀ i ∈ lost, i < gone.length
  sorted : lost.Pairwise (· < ·)
  dropped : q.dropped = lost.length
  room : q.values.length ≤ q.capacity
  full : taken = [] → lost = [] ∨ q.values.length = q.capacity

/-- A subscription's account after a run. -/
structure Account (f : Fanout) (s : Subscription) (es : List Event) (q : Queue)
    (gone : List Json) (lost : List Nat) : Prop where
  follows : (f.run es).Follows s q
  ended : q.closed = es.any (·.ends s)
  ledger : Ledger q (deliveredTo s es) (f.takenOut s es) gone lost
  pushed : ∀ i, i ∈ lost ↔ f.HasPushedOut s q.capacity es i

variable {f : Fanout} {s : Subscription} {q : Queue} {es : List Event} {e : Event}
  {delivered taken gone : List Json} {lost : List Nat}

/-! ## Positions -/

theorem without_append {values : List Json} {positions : List Nat}
    (h : ∀ i ∈ positions, i < values.length) (more : List Json) :
    without (values ++ more) positions = without values positions ++ more := by
  have hmore : (more.zipIdx values.length).filter (fun e => decide (e.2 ∉ positions)) =
      more.zipIdx values.length := by
    refine List.filter_eq_self.2 fun e he => decide_eq_true fun hm => ?_
    have hlt := h e.2 hm
    have hle := List.le_snd_of_mem_zipIdx he
    omega
  rw [without, List.zipIdx_append, List.filter_append, Nat.zero_add, hmore, List.map_append,
    List.zipIdx_map_fst]
  rfl

/-- The last value is left out where its position is among the others. -/
theorem without_concat (values : List Json) (positions : List Nat) (v : Json) :
    without (values ++ [v]) (positions ++ [values.length]) = without values positions := by
  have hsame : ∀ e ∈ values.zipIdx,
      decide (e.2 ∉ positions ++ [values.length]) = decide (e.2 ∉ positions) := by
    intro e he
    have hne : e.2 ≠ values.length := Nat.ne_of_lt (by simpa using List.snd_lt_of_mem_zipIdx he)
    simp [hne]
  rw [without, List.zipIdx_append, List.filter_append, List.filter_congr hsame]
  simp [without]

theorem without_sublist (values : List Json) (positions : List Nat) :
    (without values positions).Sublist values := by
  have hkept := (List.filter_sublist (l := values.zipIdx)
    (p := fun e => decide (e.2 ∉ positions))).map (·.1)
  rwa [List.zipIdx_map_fst] at hkept

/-! ## Queues -/

theorem feed_of_room (h : q.values.length < q.capacity) (v : Json) :
    q.feed v = { q with values := q.values ++ [v] } := by
  have hsurplus : (q.values ++ [v]).length - q.capacity = 0 := by
    rw [List.length_append, List.length_singleton]
    omega
  simp only [Queue.feed, hsurplus, List.drop_zero, Nat.add_zero]

theorem feed_of_full {x : Json} {xs : List Json} (h : q.values.length = q.capacity)
    (hv : q.values = x :: xs) (v : Json) :
    q.feed v = { q with values := xs ++ [v], dropped := q.dropped + 1 } := by
  have hsurplus : (x :: (xs ++ [v])).length - q.capacity = 1 := by
    rw [← h, hv, List.length_cons, List.length_cons, List.length_append, List.length_singleton]
    omega
  simp only [Queue.feed, hv, List.cons_append, hsurplus, List.drop_one, List.tail_cons]

namespace Ledger

theorem empty (capacity : Nat) : Ledger { capacity } [] [] [] [] where
  queued := rfl
  kept := rfl
  count := rfl
  within := by simp
  sorted := .nil
  dropped := rfl
  room := Nat.zero_le _
  full := fun _ => .inl rfl

variable (h : Ledger q delivered taken gone lost)
include h

/-- A value that is fed comes last, and the oldest one is lost if there was no room. -/
theorem feed (hpos : 0 < q.capacity) (v : Json) : ∃ gone',
    Ledger (q.feed v) (delivered ++ [v]) taken gone'
      (lost ++ if q.values.length = q.capacity then [taken.length + q.dropped] else []) := by
  have hroom := h.room
  by_cases hfull : q.values.length = q.capacity
  · obtain ⟨x, xs, hv⟩ := List.exists_cons_of_length_pos (hfull ▸ hpos)
    have hlength : xs.length + 1 = q.capacity := by rw [← hfull, hv, List.length_cons]
    have hposition : taken.length + q.dropped = gone.length := by rw [h.count, h.dropped]
    rw [if_pos hfull, hposition, feed_of_full hfull hv]
    refine ⟨gone ++ [x], ?_, ?_, ?_, fun i hi => ?_, ?_, ?_, ?_, fun _ => .inr ?_⟩
    · rw [h.queued, hv]
      simp
    · rw [without_concat, h.kept]
    · simp [h.count, Nat.add_assoc]
    · rw [List.length_append, List.length_singleton]
      rcases List.mem_append.1 hi with hi | hi
      · have hlt := h.within i hi
        omega
      · rw [List.mem_singleton.1 hi]
        omega
    · refine List.pairwise_append.2 ⟨h.sorted, List.pairwise_singleton .., fun i hi j hj => ?_⟩
      rw [List.mem_singleton.1 hj]
      exact h.within i hi
    · simp [h.dropped]
    · simp only [List.length_append, List.length_singleton]
      omega
    · simpa using hlength
  · rw [if_neg hfull, List.append_nil, feed_of_room (by omega)]
    refine ⟨gone, ?_, h.kept, h.count, h.within, h.sorted, h.dropped, ?_, fun ht => .inl ?_⟩
    · rw [h.queued, List.append_assoc]
    · simp only [List.length_append, List.length_singleton]
      omega
    · exact (h.full ht).resolve_right hfull

/-- A value that is read is gone and not lost. -/
theorem read : ∃ gone', Ledger q.read.1 delivered (taken ++ q.read.2.values) gone' lost := by
  cases hv : q.values with
  | nil =>
    have hsame : q.read.1 = q ∧ q.read.2.values = [] := by
      rw [Queue.read, hv]
      cases q.closed <;> exact ⟨rfl, rfl⟩
    rw [hsame.1, hsame.2, List.append_nil]
    exact ⟨gone, h⟩
  | cons x xs =>
    have hread : q.read = ({ q with values := xs }, .value x) := by rw [Queue.read, hv]
    rw [hread]
    refine ⟨gone ++ [x], ?_, ?_, ?_, fun i hi => ?_, h.sorted, h.dropped, ?_, fun ht => ?_⟩
    · rw [h.queued, hv]
      simp
    · rw [without_append h.within, h.kept]
      rfl
    · simp only [List.length_append, h.count, Mailbox.Found.values, List.length_singleton]
      omega
    · have hlt := h.within i hi
      rw [List.length_append]
      omega
    · have hroom := h.room
      rw [hv, List.length_cons] at hroom
      exact Nat.le_of_succ_le hroom
    · simp [Mailbox.Found.values] at ht

theorem close : Ledger q.close delivered taken gone lost :=
  ⟨h.queued, h.kept, h.count, h.within, h.sorted, h.dropped, h.room, h.full⟩

end Ledger

/-! ## One more event -/

theorem findsAll_concat (f : Fanout) (s : Subscription) (es : List Event) (e : Event) :
    f.findsAll s (es ++ [e]) = f.findsAll s es ++ (f.run es).finds s e := by
  induction es generalizing f with
  | nil => simp [findsAll]
  | cons e' es ih => simp [findsAll, ih]

theorem takenOut_concat (f : Fanout) (s : Subscription) (es : List Event) (e : Event) :
    f.takenOut s (es ++ [e]) =
      f.takenOut s es ++ ((f.run es).finds s e).flatMap (·.values) := by
  rw [takenOut, findsAll_concat, List.flatMap_append, takenOut]

theorem deliveredTo_cons (s : Subscription) (e : Event) (es : List Event) :
    deliveredTo s (e :: es) =
      if e.ends s then [] else (e.valueFor? s.collection).toList ++ deliveredTo s es := by
  cases he : e.ends s with
  | true => simp [deliveredTo, he]
  | false => cases hv : e.valueFor? s.collection <;> simp [deliveredTo, he, hv]

/-- One more event delivers its value to a subscription that has not been ended. -/
theorem deliveredTo_concat (s : Subscription) (es : List Event) (e : Event) :
    deliveredTo s (es ++ [e]) = deliveredTo s es ++
      if es.any (·.ends s) || e.ends s then [] else (e.valueFor? s.collection).toList := by
  induction es with
  | nil =>
    rw [List.nil_append, deliveredTo_cons]
    simp [deliveredTo]
  | cons e' es ih =>
    rw [List.cons_append, deliveredTo_cons, deliveredTo_cons, ih]
    cases he : e'.ends s <;> simp [he]

theorem hasPushedOut_concat {capacity i : Nat} : f.HasPushedOut s capacity (es ++ [e]) i ↔
    f.HasPushedOut s capacity es i ∨ f.PushesOut s capacity es e i :=
  exists_split_concat

/-- What an event is for the queue of a subscription: a value, a read, or neither. -/
theorem heard_cases (s : Subscription) (isOpen : Bool) (e : Event) :
    (∃ v, isOpen = true ∧ e = .deliver s.collection v ∧ heard s isOpen e = [.feed v]) ∨
    (isOpen = true → e.ends s = false → e.valueFor? s.collection = none) ∧
      (heard s isOpen e = [.read] ∨ heard s isOpen e = [.close] ∨ heard s isOpen e = []) := by
  unfold heard
  cases he : e.ends s with
  | true => cases isOpen <;> simp
  | false =>
    cases e with
    | deliver collection v =>
      by_cases hc : isOpen = true ∧ collection = s.collection
      · exact .inl ⟨v, hc.1, by rw [hc.2], by simp [hc]⟩
      · refine .inr ⟨fun hopen _ => ?_, .inr (.inr ?_)⟩
        · exact if_neg fun hcol => hc ⟨hopen, hcol⟩
        · simpa using hc
    | act s' a =>
      refine .inr ⟨fun _ _ => rfl, ?_⟩
      by_cases hr : s' = s ∧ a.reads = true
      · exact .inl (by simp [hr])
      · exact .inr (.inr (by simpa using hr))
    | register _ _ | remove _ | closeAll => exact .inr ⟨fun _ _ => rfl, .inr (.inr rfl)⟩

theorem capacity_heard (s : Subscription) (q : Queue) (isOpen : Bool) (e : Event) :
    (q.run (heard s isOpen e)).1.capacity = q.capacity := by
  have hread : q.read.1.capacity = q.capacity := by
    unfold Queue.read
    split <;> rfl
  obtain ⟨v, -, -, hv⟩ | ⟨-, hv | hv | hv⟩ := heard_cases s isOpen e <;> rw [hv]
  · rfl
  · exact hread
  all_goals rfl

namespace Account

variable (h : f.Account s es q gone lost)
include h

/-- A delivery that the subscription gets. -/
theorem feed {v : Json} (hq : q.closed = false)
    (hfollows : (f.run (es ++ [.deliver s.collection v])).Follows s (q.feed v)) :
    ∃ gone' lost', f.Account s (es ++ [.deliver s.collection v]) (q.feed v) gone' lost' := by
  obtain ⟨m, hm, hshows⟩ := h.follows.box
  have hpos : 0 < q.capacity := hshows.capacity ▸ hshows.positive
  obtain ⟨gone', hledger⟩ := h.ledger.feed hpos v
  have hnot : es.any (·.ends s) = false := h.ended ▸ hq
  have hdelivered : deliveredTo s (es ++ [.deliver s.collection v]) = deliveredTo s es ++ [v] := by
    rw [deliveredTo_concat, hnot]
    simp [Event.ends, Event.valueFor?]
  have htaken : f.takenOut s (es ++ [.deliver s.collection v]) = f.takenOut s es := by
    rw [takenOut_concat]
    exact List.append_nil _
  rw [← hdelivered, ← htaken] at hledger
  refine ⟨gone', _, hfollows, ?_, hledger, fun i => ?_⟩
  · rw [List.any_append, hnot]
    exact hq
  · show _ ↔ f.HasPushedOut s q.capacity _ i
    rw [hasPushedOut_concat, List.mem_append, h.pushed, htaken]
    refine or_congr_right ?_
    constructor
    · intro hi
      split at hi
      · rename_i hfull
        refine ⟨v, m, rfl, hm, hshows.closed.trans hq, by rw [hshows.values, hfull], ?_⟩
        rw [List.mem_singleton.1 hi, hshows.dropped]
      · cases hi
    · rintro ⟨v', m', -, hm', -, hfull, rfl⟩
      cases hm.symm.trans hm'
      rw [if_pos (by rw [← hshows.values, hfull]), hshows.dropped]
      exact List.mem_singleton.2 rfl

/-- An event that delivers nothing to the subscription. -/
theorem unfed {q' : Queue} (hno : q.closed = false → e.ends s = false → e.valueFor? s.collection = none)
    (hfollows : (f.run (es ++ [e])).Follows s q') (hclosed : q'.closed = (es ++ [e]).any (·.ends s))
    (hcapacity : q'.capacity = q.capacity)
    (hledger : ∃ gone', Ledger q' (deliveredTo s es) (f.takenOut s (es ++ [e])) gone' lost) :
    ∃ gone' lost', f.Account s (es ++ [e]) q' gone' lost' := by
  obtain ⟨gone', hledger⟩ := hledger
  have hdelivered : deliveredTo s (es ++ [e]) = deliveredTo s es := by
    rw [deliveredTo_concat, ← h.ended]
    cases hq : q.closed <;> cases he : e.ends s <;> simp [hno, hq, he]
  refine ⟨gone', lost, hfollows, hclosed, hdelivered.symm ▸ hledger, fun i => ?_⟩
  rw [hasPushedOut_concat, h.pushed, hcapacity]
  refine (or_iff_left ?_).symm
  rintro ⟨v, m, rfl, hm, hopen, -⟩
  obtain ⟨b, hb, hshows⟩ := h.follows.box
  cases hb.symm.trans hm
  simpa [Event.valueFor?] using hno (hshows.closed ▸ hopen) rfl

/-- **One more event in an account.** -/
theorem step (hown : ∀ s' a, e = .act s' a → s'.key = s.key → s' = s) (hkeep : e ≠ .act s .discard)
    (hlie : e = .act s .lieDown → ∀ m, (f.run es).mailbox? s = some m → m.reader = .leaving) :
    ∃ q' gone' lost', q'.capacity = q.capacity ∧ f.Account s (es ++ [e]) q' gone' lost' := by
  obtain ⟨hfollows, hfinds⟩ := h.follows.step hown hkeep hlie
  have hrun : f.run (es ++ [e]) = ((f.run es).step e).1 := by rw [run_append]; rfl
  have hclosed : (q.run (heard s (!q.closed) e)).1.closed = (es ++ [e]).any (·.ends s) := by
    rw [closed_heard, h.ended, List.any_append, List.any_cons, List.any_nil, Bool.or_false]
  have htaken := takenOut_concat f s es e
  rw [hfinds] at htaken
  rw [← hrun] at hfollows
  refine ⟨(q.run (heard s (!q.closed) e)).1, ?_⟩
  obtain ⟨v, hopen, rfl, hv⟩ | ⟨hno, hheard⟩ := heard_cases s (!q.closed) e
  · rw [hv] at hfollows ⊢
    obtain ⟨gone', lost', haccount⟩ := h.feed (by simpa using hopen) hfollows
    exact ⟨gone', lost', rfl, haccount⟩
  · have hledger : ∃ gone', Ledger (q.run (heard s (!q.closed) e)).1 (deliveredTo s es)
        (f.takenOut s (es ++ [e])) gone' lost := by
      rw [htaken]
      obtain hv | hv | hv := hheard <;> rw [hv]
      · obtain ⟨gone', hread⟩ := h.ledger.read
        exact ⟨gone', by simpa [Queue.run, Queue.step] using hread⟩
      · exact ⟨gone, by simpa [Queue.run, Queue.step] using h.ledger.close⟩
      · exact ⟨gone, by simpa [Queue.run] using h.ledger⟩
    have hcapacity := capacity_heard s q (!q.closed) e
    obtain ⟨gone', lost', haccount⟩ :=
      h.unfed (by simpa using hno) hfollows hclosed hcapacity hledger
    exact ⟨gone', lost', hcapacity, haccount⟩

end Account

/-! ## Runs -/

theorem orderly_concat : f.Orderly s (es ++ [e]) ↔ f.Orderly s es ∧
    (e = .act s .lieDown → ∀ m, (f.run es).mailbox? s = some m → m.reader = .leaving) := by
  induction es generalizing f with
  | nil => simp [Orderly]
  | cons e' es ih =>
    rw [List.cons_append, Orderly, Orderly, ih, and_assoc]
    rfl

/-- Every subscription can be accounted for that keeps its handle. -/
theorem account_run {capacity : Nat} (h : f.Follows s { capacity }) (hown : Owned s es)
    (hkeep : .act s .discard ∉ es) (horder : f.Orderly s es) :
    ∃ q gone lost, q.capacity = capacity ∧ f.Account s es q gone lost := by
  induction es using List.reverseRecOn with
  | nil =>
    refine ⟨{ capacity }, [], [], rfl, h, rfl, Ledger.empty capacity, fun i => ?_⟩
    refine iff_of_false List.not_mem_nil ?_
    rintro ⟨before, e, after, hes, -⟩
    cases before <;> cases hes
  | append_singleton es e ih =>
    obtain ⟨horder, hlie⟩ := orderly_concat.1 horder
    obtain ⟨q, gone, lost, hcapacity, haccount⟩ := ih (hown.subset (List.subset_append_left ..))
      (fun hm => hkeep (List.mem_append_left _ hm)) horder
    obtain ⟨q', gone', lost', hcapacity', haccount'⟩ := haccount.step
      (hown.of_mem (List.mem_concat_self ..))
      (ne_of_mem_of_not_mem (List.mem_concat_self ..) hkeep) hlie
    exact ⟨q', gone', lost', hcapacity'.trans hcapacity, haccount'⟩

/-- **A mailbox loses its oldest values and no others.** From its registration on, as long as a
subscriber keeps its handle: its mailbox has at most as many values as its capacity, or one if that is
zero; what its reads have taken out and what is in the mailbox are together the values delivered to
it, in order, without those at certain positions, as many as the mailbox counts; and these are the
positions of the values that were the oldest in the mailbox when a delivery found it full. The
mailbox has the last of the values delivered, all those behind the ones that were taken out or pushed
out, and without reads it has as many as it can have. -/
theorem losses_are_the_oldest {before es : List Event} {c : String} {capacity : Nat} {g : Fanout}
    (hreg : (run {} before).register c capacity = .ok (s, g)) (hown : Owned s es)
    (hkeep : .act s .discard ∉ es) (horder : g.Orderly s es) :
    ∃ m lost, (g.run es).mailbox? s = some m ∧
      m.values.length ≤ max capacity 1 ∧
      g.takenOut s es ++ m.values = without (deliveredTo s es) lost ∧
      (g.takenOut s es ++ m.values).Sublist (deliveredTo s es) ∧
      lost.Pairwise (· < ·) ∧ lost.length = m.dropped ∧
      (∀ i, i ∈ lost ↔ g.HasPushedOut s (max capacity 1) es i) ∧
      m.values = (deliveredTo s es).drop ((g.takenOut s es).length + m.dropped) ∧
      (deliveredTo s es).length = (g.takenOut s es).length + m.values.length + m.dropped ∧
      (g.takenOut s es = [] → m.values =
        (deliveredTo s es).drop
          ((deliveredTo s es).length - min (deliveredTo s es).length (max capacity 1))) := by
  have hinv : (run {} before).Inv := Inv.empty.run before
  obtain ⟨q, gone, lost, hcapacity, haccount⟩ :=
    account_run (follows_register hinv hreg) hown hkeep horder
  obtain ⟨m, hm, hshows⟩ := haccount.follows.box
  have hledger := haccount.ledger
  have hpushed := haccount.pushed
  rw [hcapacity] at hpushed
  have hkept : g.takenOut s es ++ m.values = without (deliveredTo s es) lost := by
    rw [hledger.queued, without_append hledger.within, ← hledger.kept, hshows.values]
  have hgone : gone.length = (g.takenOut s es).length + m.dropped := by
    rw [hledger.count, hshows.dropped, hledger.dropped]
  have hqueued : m.values = (deliveredTo s es).drop gone.length := by
    rw [hledger.queued, List.drop_left, hshows.values]
  have hlength : (deliveredTo s es).length = gone.length + m.values.length := by
    rw [hledger.queued, List.length_append, hshows.values]
  have hroom : m.values.length ≤ max capacity 1 := by
    rw [hshows.values, ← hcapacity]
    exact hledger.room
  refine ⟨m, lost, hm, hroom, hkept, hkept ▸ without_sublist _ _, hledger.sorted,
    by rw [hshows.dropped, hledger.dropped], hpushed, hgone ▸ hqueued, by omega, fun ht => ?_⟩
  have hfull : m.dropped = 0 ∨ m.values.length = max capacity 1 := by
    refine (hledger.full ht).imp (fun hl => ?_) fun hl => ?_
    · rw [hshows.dropped, hledger.dropped, hl, List.length_nil]
    · rw [hshows.values, hl, hcapacity]
  rw [ht, List.length_nil] at hgone
  have hposition : (deliveredTo s es).length -
      min (deliveredTo s es).length (max capacity 1) = gone.length := by omega
  rw [hposition]
  exact hqueued

/-- The subscriber reads one value of five and has room for two. -/
def busyDay : List Event :=
  [.deliver "pool" (.string "a"), .deliver "pool" (.string "b"), .deliver "pool" (.string "c"),
    .act ⟨"pool", 1⟩ .take, .deliver "disk" (.string "x"), .deliver "pool" (.string "d"),
    .deliver "pool" (.string "e")]

theorem two_of_five_are_lost : ∃ g : Fanout,
    (run {} []).register "pool" 2 = .ok (⟨"pool", 1⟩, g) ∧ Owned ⟨"pool", 1⟩ busyDay ∧
    .act ⟨"pool", 1⟩ .discard ∉ busyDay ∧ g.Orderly ⟨"pool", 1⟩ busyDay ∧
    ∃ m lost, (g.run busyDay).mailbox? ⟨"pool", 1⟩ = some m ∧ m.dropped = 2 ∧
      m.values = [.string "d", .string "e"] ∧
      (deliveredTo ⟨"pool", 1⟩ busyDay).length = 5 ∧ lost.length = 2 ∧
      without (deliveredTo ⟨"pool", 1⟩ busyDay) lost = [.string "b", .string "d", .string "e"] := by
  have hreg : (run {} []).register "pool" 2 = .ok (⟨"pool", 1⟩, _) := rfl
  have hown : Owned ⟨"pool", 1⟩ busyDay := by
    intro s' a hm hk
    simp only [busyDay, List.mem_cons, List.not_mem_nil, reduceCtorEq, Event.act.injEq, false_or,
      or_false] at hm
    exact hm.1
  have hkeep : .act ⟨"pool", 1⟩ .discard ∉ busyDay := by decide
  have horder : (run {} [.register "pool" 2]).Orderly ⟨"pool", 1⟩ busyDay := by
    simp [busyDay, Orderly]
  obtain ⟨m, lost, hm, -, hkept, -, -, hcount, -⟩ :=
    losses_are_the_oldest hreg hown hkeep horder
  cases hm
  exact ⟨_, hreg, hown, hkeep, horder, _, lost, rfl, rfl, rfl, rfl, hcount, hkept.symm⟩

end ServerLink.Fanout
