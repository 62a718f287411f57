import ServerLink.Proofs.Subscription.History
import ServerLink.Proofs.Subscription.Queue

/-!
# Subscriptions are independent queues

What a subscriber sees of a fanout is what a queue by itself shows that is fed the values delivered
to the subscriber's collection from its registration to the first event that ends it (`story`,
`subscribers_see_queues_of_their_own`). So no other subscriber has a part in it.
-/

namespace ServerLink.Fanout

/-- The act takes a value out of the mailbox, if there is one. -/
def Act.reads : Act → Bool
  | .take | .look | .poll => true
  | .close | .discard | .lieDown | .stopWaiting => false

/-- What an event is for the queue of a subscription that is open or not. -/
def heard (s : Subscription) (isOpen : Bool) (e : Event) : List Queue.Step :=
  if e.ends s then if isOpen then [.close] else []
  else match e with
    | .deliver collection v => if isOpen && collection = s.collection then [.feed v] else []
    | .act s' a => if s' = s && a.reads then [.read] else []
    | .register _ _ | .remove _ | .closeAll => []

/-- What a run is for the queue of a subscription: values of its collection until the first event
that ends it, that end, and its own reads. -/
def story (s : Subscription) (isOpen : Bool) : List Event → List Queue.Step
  | [] => []
  | e :: es => heard s isOpen e ++ story s (isOpen && !e.ends s) es

/-- The event is the subscription's own, its end, or a delivery to its collection. -/
def Event.concerns (s : Subscription) (e : Event) : Bool :=
  e.ends s || match e with
    | .deliver collection _ => collection = s.collection
    | .act s' _ => s' = s
    | .register _ _ | .remove _ | .closeAll => false

/-- What a subscriber finds by an event. -/
def finds (f : Fanout) (s : Subscription) : Event → List Mailbox.Found
  | .act s' a => if s' = s && a.reads then [(f.act s a).2] else []
  | .register _ _ | .deliver _ _ | .remove _ | .closeAll => []

/-- What a subscriber finds by all its reads in a run, in order. -/
def findsAll (f : Fanout) (s : Subscription) : List Event → List Mailbox.Found
  | [] => []
  | e :: es => f.finds s e ++ (f.step e).1.findsAll s es

/-- Whoever acts under the subscription's key has the subscription or a closer of it. -/
def Owned (s : Subscription) (es : List Event) : Prop :=
  ∀ s' a, .act s' a ∈ es → s'.key = s.key → s' = s

/-- The subscriber goes to sleep only when it has just looked and found nothing. -/
def Orderly (f : Fanout) (s : Subscription) : List Event → Prop
  | [] => True
  | e :: es => (e = .act s .lieDown → ∀ m, f.mailbox? s = some m → m.reader = .leaving) ∧
      (f.step e).1.Orderly s es

/-- The subscription's mailbox shows what the queue shows, and the two are open together. -/
structure Follows (f : Fanout) (s : Subscription) (q : Queue) : Prop where
  inv : f.Inv
  box : ∃ m, f.mailbox? s = some m ∧ m.Shows q
  listed : q.closed = false ↔ s.key ∈ f.subscribers s.collection

variable {f : Fanout} {s : Subscription} {q : Queue}

theorem Owned.of_mem {es : List Event} (h : Owned s es) {e : Event} (he : e ∈ es)
    (s' : Subscription) (a : Act) (heq : e = .act s' a) : s'.key = s.key → s' = s :=
  h s' a (heq ▸ he)

theorem Owned.subset {es es' : List Event} (h : Owned s es) (hsub : es' ⊆ es) : Owned s es' :=
  fun s' a hm => h s' a (hsub hm)

/-! ## Stories -/

/-- To take an entry out is to close the queue of an open subscription that has it. -/
theorem heard_removal {s' : Subscription} {isOpen : Bool} {e : Event}
    (he : e = .remove s' ∨ e = .act s' .close) : heard s isOpen e =
      if s' = s then if isOpen then [.close] else [] else [] := by
  rcases he with rfl | rfl <;> by_cases hs : s' = s <;> simp [heard, Event.ends, hs, Act.reads]

theorem closed_heard (s : Subscription) (q : Queue) (e : Event) :
    (q.run (heard s (!q.closed) e)).1.closed = (q.closed || e.ends s) := by
  unfold heard
  cases he : e.ends s with
  | true =>
    cases hc : q.closed with
    | true => simp [Queue.run, hc]
    | false => simp [Queue.run, Queue.step, Queue.close]
  | false =>
    rw [Bool.or_false, if_neg (by simp)]
    split
    · split <;> simp [Queue.run, Queue.step, Queue.feed]
    · split <;> simp [Queue.run, Queue.step]
    all_goals rfl

/-- Only what concerns a subscription is in its story. -/
theorem story_filter (s : Subscription) (isOpen : Bool) (es : List Event) :
    story s isOpen (es.filter (·.concerns s)) = story s isOpen es := by
  induction es generalizing isOpen with
  | nil => rfl
  | cons e es ih =>
    cases hc : e.concerns s with
    | true => rw [List.filter_cons_of_pos hc, story, story, ih]
    | false =>
      have hends : e.ends s = false := by
        simp only [Event.concerns, Bool.or_eq_false_iff] at hc
        exact hc.1
      have hheard : heard s isOpen e = [] := by
        unfold heard
        rw [if_neg (by simp [hends])]
        cases e <;> simp_all [Event.concerns]
      rw [List.filter_cons_of_neg (by simp [hc]), story, hheard, hends, ih]
      simp

/-! ## One event -/

theorem Inv.same_collection (h : f.Inv) {k : Nat} {c c' : String} (hc : k ∈ f.subscribers c)
    (hc' : k ∈ f.subscribers c') : c = c' := by
  by_contra hne
  have hsplit := flatten_split h.collections c
  have hrest : k ∈ ((Table.erase f.channels c).map (·.2)).flatten := by
    rw [subscribers, ← Table.lookup_erase_ne (Ne.symm hne)] at hc'
    exact mem_openKeys (f := { f with channels := Table.erase f.channels c }) hc'
  exact (List.nodup_append.1 (hsplit.nodup_iff.1 h.once)).2.2 k hc k hrest rfl

theorem lookup_remove_eq (f : Fanout) (s : Subscription) (k : Nat) :
    (f.remove s).1.mailboxes.lookup k = (f.mailboxes.lookup k).map fun m =>
      if s.key ∈ f.subscribers s.collection ∧ k = s.key then m.close else m := by
  rcases remove_cases f s with ⟨hn, hs⟩ | ⟨hk, hs⟩ <;> rw [hs]
  · simp [hn]
  · rw [updateMailbox_eq, lookup_updateMailboxes]
    simp [hk]

namespace Follows

variable (h : f.Follows s q)
include h

theorem key_le : s.key ≤ f.lastKey := by
  obtain ⟨m, hm, -⟩ := h.box
  exact h.inv.stored _ (Table.lookup_isSome.1 (by rw [mailbox?] at hm; rw [hm]; rfl))

/-- The key stands in no channel but that of its collection, and in that one as long as the queue
is open. -/
theorem mem_subscribers {c : String} :
    s.key ∈ f.subscribers c ↔ q.closed = false ∧ c = s.collection := by
  constructor
  · intro hk
    obtain ⟨m, hm, hshows⟩ := h.box
    have hopen := (h.inv.isOpen _ m (Table.mem_of_lookup hm)).2 (mem_openKeys hk)
    have hq : q.closed = false := hshows.closed ▸ hopen
    exact ⟨hq, h.inv.same_collection hk (h.listed.1 hq)⟩
  · rintro ⟨hq, rfl⟩
    exact h.listed.1 hq

theorem listed_step (e : Event) : (q.run (heard s (!q.closed) e)).1.closed = false ↔
    s.key ∈ (f.step e).1.subscribers s.collection := by
  rw [closed_heard, Fanout.listed_step h.key_le, ← h.listed, Bool.or_eq_false_iff]

theorem box_remove (s' : Subscription) : ∃ m, (f.remove s').1.mailbox? s = some m ∧
    m.Shows (q.run (if s' = s then if !q.closed then [.close] else [] else [])).1 := by
  obtain ⟨m, hm, hshows⟩ := h.box
  rw [mailbox?] at hm
  rw [mailbox?, lookup_remove_eq, hm]
  by_cases hs : s' = s
  · subst hs
    cases hc : q.closed with
    | true =>
      have hn : s'.key ∉ f.subscribers s'.collection := fun hk => by
        have := (h.mem_subscribers.1 hk).1
        rw [hc] at this
        cases this
      exact ⟨m, by simp [hn], by simpa [Queue.run] using hshows⟩
    | false =>
      have hk := h.listed.1 hc
      exact ⟨m.close, by simp [hk], by simpa [Queue.run, Queue.step] using hshows.close⟩
  · -- the key is listed in its own collection only, so a closer for another finds no entry
    have hn : ¬ (s'.key ∈ f.subscribers s'.collection ∧ s.key = s'.key) := by
      rintro ⟨hk, he⟩
      rw [← he] at hk
      refine hs ?_
      cases s'; cases s
      simp_all [h.mem_subscribers]
    exact ⟨m, by simp [hn], by simpa [hs, Queue.run] using hshows⟩

theorem box_read {how : Mailbox → Mailbox × Mailbox.Found}
    (hhow : ∀ m : Mailbox, m.Shows q → (how m).1.Shows q.read.1 ∧ (how m).2 = q.read.2) :
    (∃ m, (f.read s how).1.mailbox? s = some m ∧ m.Shows q.read.1) ∧
      (f.read s how).2 = q.read.2 := by
  obtain ⟨m, hm, hshows⟩ := h.box
  obtain ⟨hs, hf⟩ := hhow m hshows
  rw [h.inv.read_eq hm, mailbox?, lookup_updateMailboxes]
  rw [mailbox?] at hm
  exact ⟨⟨(how m).1, by simp [hm], hs⟩, hf⟩

theorem box_update (change : Mailbox → Mailbox)
    (hchange : ∀ m, f.mailbox? s = some m → m.Shows q → (change m).Shows q) :
    ∃ m, (f.updateMailbox s.key change).mailbox? s = some m ∧ m.Shows q := by
  obtain ⟨m, hm, hshows⟩ := h.box
  have hshows' := hchange m hm hshows
  rw [mailbox?] at hm
  rw [updateMailbox_eq, mailbox?, lookup_updateMailboxes]
  exact ⟨change m, by simp [hm], hshows'⟩

/-- What is done under another key leaves the mailbox as it is. -/
theorem box_other {s' : Subscription} (hk : s'.key ≠ s.key) (a : Act) :
    (f.act s' a).1.mailbox? s = f.mailbox? s := by
  obtain ⟨m, hm, -⟩ := h.box
  have hremove : (f.remove s').1.mailboxes.lookup s.key = f.mailboxes.lookup s.key := by
    rw [lookup_remove_eq]
    simp [Ne.symm hk]
  have hread := fun how => lookup_read_ne hm hk how
  rw [hm]
  cases a with
  | close => exact hremove.trans hm
  | discard => exact (Table.lookup_erase_ne (Ne.symm hk)).trans (hremove.trans hm)
  | take | look | poll => exact hread _
  | lieDown | stopWaiting => exact lookup_updateMailbox_ne hm hk _

/-- An act of the subscriber itself. -/
theorem box_act {a : Act} (hkeep : a ≠ .discard)
    (hlie : a = .lieDown → ∀ m, f.mailbox? s = some m → m.reader = .leaving) :
    (∃ m, (f.act s a).1.mailbox? s = some m ∧
        m.Shows (q.run (heard s (!q.closed) (.act s a))).1) ∧
      f.finds s (.act s a) = (q.run (heard s (!q.closed) (.act s a))).2 := by
  have hread : ∀ how : Mailbox → Mailbox × Mailbox.Found,
      (∀ m : Mailbox, m.Shows q → (how m).1.Shows q.read.1 ∧ (how m).2 = q.read.2) →
      (∃ m, (f.read s how).1.mailbox? s = some m ∧ m.Shows (q.run [.read]).1) ∧
        [(f.read s how).2] = (q.run [.read]).2 := fun how hhow => by
    obtain ⟨hb, hf⟩ := h.box_read hhow
    exact ⟨hb, by rw [hf]; rfl⟩
  cases a with
  | discard => exact absurd rfl hkeep
  | close =>
    rw [heard_removal (.inr rfl)]
    refine ⟨h.box_remove s, ?_⟩
    cases q.closed <;> simp [finds, Act.reads, Queue.run, Queue.step]
  | take => simpa [heard, Event.ends, finds, Act.reads, act] using hread _ fun _ hm => hm.take
  | look => simpa [heard, Event.ends, finds, Act.reads, act] using hread _ fun _ hm => hm.look
  | poll => simpa [heard, Event.ends, finds, Act.reads, act] using hread _ fun _ hm => hm.poll
  | lieDown =>
    have := h.box_update Mailbox.lieDown fun m hm hs => hs.lieDown (hlie rfl m hm)
    simpa [heard, Event.ends, finds, Act.reads, act, Queue.run] using this
  | stopWaiting =>
    have := h.box_update Mailbox.stopWaiting fun m _ hs => hs.stopWaiting
    simpa [heard, Event.ends, finds, Act.reads, act, Queue.run] using this

/-- The mailbox and the queue go on together, and reads find the same. -/
theorem step {e : Event} (hown : ∀ s' a, e = .act s' a → s'.key = s.key → s' = s)
    (hkeep : e ≠ .act s .discard)
    (hlie : e = .act s .lieDown → ∀ m, f.mailbox? s = some m → m.reader = .leaving) :
    (f.step e).1.Follows s (q.run (heard s (!q.closed) e)).1 ∧
      f.finds s e = (q.run (heard s (!q.closed) e)).2 := by
  suffices hbox : (∃ m, (f.step e).1.mailbox? s = some m ∧
      m.Shows (q.run (heard s (!q.closed) e)).1) ∧
        f.finds s e = (q.run (heard s (!q.closed) e)).2 from
    ⟨⟨h.inv.step e, hbox.1, h.listed_step e⟩, hbox.2⟩
  obtain ⟨m, hm, hshows⟩ := h.box
  rw [mailbox?] at hm
  cases e with
  | register collection capacity =>
    refine ⟨⟨m, ?_, hshows⟩, rfl⟩
    rw [mailbox?]
    cases hc : f.closed with
    | true => simp only [Fanout.step, register_closed hc, hm]
    | false => simp only [Fanout.step, register_open hc, List.lookup_append, hm, Option.some_or]
  | deliver collection v =>
    have hiff : s.key ∈ f.subscribers collection ↔
        (!q.closed && decide (collection = s.collection)) = true := by
      rw [h.mem_subscribers]
      simp
    have hl : (f.step (.deliver collection v)).1.mailbox? s =
        some (if s.key ∈ f.subscribers collection then m.push v else m) := by
      show (f.updateMailboxes _ _).mailboxes.lookup s.key = _
      rw [lookup_updateMailboxes, hm]
      rfl
    have hheard : heard s (!q.closed) (.deliver collection v) =
        if !q.closed && decide (collection = s.collection) then [.feed v] else [] := rfl
    rw [hl, hheard]
    by_cases hk : s.key ∈ f.subscribers collection
    · rw [if_pos hk, if_pos (hiff.1 hk)]
      exact ⟨⟨_, rfl, hshows.push v⟩, rfl⟩
    · rw [if_neg hk, if_neg (mt hiff.2 hk)]
      exact ⟨⟨_, rfl, hshows⟩, rfl⟩
  | remove s' =>
    rw [heard_removal (.inl rfl)]
    refine ⟨h.box_remove s', ?_⟩
    cases q.closed <;> by_cases hs : s' = s <;> simp [finds, hs, Queue.run, Queue.step]
  | closeAll =>
    have hl : (f.step .closeAll).1.mailbox? s = some (if m.closed then m else m.close) := by
      show f.closeAll.1.mailboxes.lookup s.key = _
      rw [lookup_closeAll h.inv, hm]
      rfl
    have hheard : heard s (!q.closed) .closeAll = if !q.closed then [.close] else [] := rfl
    rw [hl, hheard, hshows.closed]
    cases q.closed with
    | true => exact ⟨⟨m, rfl, hshows⟩, rfl⟩
    | false => exact ⟨⟨m.close, rfl, hshows.close⟩, rfl⟩
  | act s' a =>
    by_cases hs : s' = s
    · subst hs
      exact h.box_act (fun ha => hkeep (by rw [ha])) fun ha => hlie (by rw [ha])
    · have hk : s'.key ≠ s.key := fun hk => hs (hown s' a rfl hk)
      have hheard : heard s (!q.closed) (.act s' a) = [] := by
        cases a <;> simp [heard, Event.ends, hs]
      rw [hheard]
      refine ⟨⟨m, ?_, hshows⟩, by simp [finds, hs, Queue.run]⟩
      exact (h.box_other hk a).trans hm

/-! ## Runs -/

theorem run {es : List Event} (hown : Owned s es) (hkeep : .act s .discard ∉ es)
    (horder : f.Orderly s es) :
    (f.run es).Follows s (q.run (story s (!q.closed) es)).1 ∧
      f.findsAll s es = (q.run (story s (!q.closed) es)).2 := by
  induction es generalizing f q with
  | nil => exact ⟨h, rfl⟩
  | cons e es ih =>
    obtain ⟨hstep, hfinds⟩ := h.step (hown.of_mem List.mem_cons_self)
      (ne_of_mem_of_not_mem List.mem_cons_self hkeep) horder.1
    obtain ⟨hrun, hrest⟩ := ih hstep (hown.subset (List.subset_cons_self ..))
      (List.not_mem_of_not_mem_cons hkeep) horder.2
    rw [closed_heard, Bool.not_or] at hrun hrest
    rw [story, Queue.run_append, run_cons, findsAll, hfinds, hrest]
    exact ⟨hrun, rfl⟩

end Follows

/-- A subscription begins with an empty queue. -/
theorem follows_register (h : f.Inv) {c : String} {capacity : Nat} {g : Fanout}
    (hreg : f.register c capacity = .ok (s, g)) :
    g.Follows s { capacity := max capacity 1 } := by
  obtain ⟨rfl, -, hinv, hbox, hfresh⟩ := register_fresh h hreg
  exact ⟨hinv, ⟨_, hbox, Mailbox.ofCapacity_shows capacity⟩, by simp [hfresh]⟩

/-- **The fanout is a product of queues.** From its registration on, as long as it keeps its handle,
a subscriber finds by its reads what a queue by itself lets it find that is fed the values delivered
to its collection until the first event that ends the subscription; its mailbox shows the same
values, losses and close at any time, and nobody sleeps at it who has missed something. Nothing else
is part of that story, in particular no other subscriber. And a delivery reaches the subscriptions
that have been opened for the collection and not ended since. -/
theorem subscribers_see_queues_of_their_own {before es : List Event} {c : String} {capacity : Nat}
    {g : Fanout} (hreg : (run {} before).register c capacity = .ok (s, g)) (hown : Owned s es)
    (hkeep : .act s .discard ∉ es) (horder : g.Orderly s es) :
    let alone := Queue.run { capacity := max capacity 1 } (story s true es)
    s.collection = c ∧
    g.findsAll s es = alone.2 ∧
    (∃ m, (g.run es).mailbox? s = some m ∧ m.values = alone.1.values ∧
      m.dropped = alone.1.dropped ∧ m.closed = alone.1.closed ∧
      (m.reader = .asleep → alone.1.values = [] ∧ alone.1.closed = false)) ∧
    story s true es = story s true (es.filter (·.concerns s)) ∧
    ∀ all collection v, ((run {} all).step (.deliver collection v)).2 =
      .reached ((stillOpen all).countP fun s => s.collection = collection) := by
  intro alone
  have hinv : (run {} before).Inv := Inv.empty.run before
  obtain ⟨hrun, hfinds⟩ := (follows_register hinv hreg).run hown hkeep horder
  obtain ⟨m, hm, hshows⟩ := hrun.box
  refine ⟨(register_fresh hinv hreg).1, hfinds,
    ⟨m, hm, hshows.values, hshows.dropped, hshows.closed, fun hr => ?_⟩,
    (story_filter s true es).symm, fun all collection v => ?_⟩
  · obtain ⟨hv, hc⟩ := hshows.asleep hr
    exact ⟨hshows.values ▸ hv, hshows.closed ▸ hc⟩
  · rw [← count_history]
    rfl

/-- The second subscriber of `pool` has room for one value, loses one and sleeps for another; its
sibling is closed before that one comes, and all subscriptions are while there is one unread. -/
def crowd : List Event :=
  [.deliver "pool" (.string "a"), .deliver "pool" (.string "b"), .act ⟨"pool", 2⟩ .take,
    .act ⟨"pool", 2⟩ .look, .act ⟨"pool", 2⟩ .lieDown, .deliver "disk" (.string "x"),
    .remove ⟨"pool", 1⟩, .deliver "pool" (.string "c"), .act ⟨"pool", 2⟩ .poll,
    .act ⟨"pool", 1⟩ .discard, .deliver "pool" (.string "d"), .closeAll,
    .deliver "pool" (.string "e"), .act ⟨"pool", 2⟩ .take, .act ⟨"pool", 2⟩ .take]

theorem queue_of_one_in_crowd : ∃ g : Fanout,
    (run {} [.register "pool" 8]).register "pool" 0 = .ok (⟨"pool", 2⟩, g) ∧
    Owned ⟨"pool", 2⟩ crowd ∧ .act ⟨"pool", 2⟩ .discard ∉ crowd ∧ g.Orderly ⟨"pool", 2⟩ crowd ∧
    g.findsAll ⟨"pool", 2⟩ crowd = [.value (.string "b"), .nothing, .value (.string "c"),
      .value (.string "d"), .ended] ∧
    ∃ m, (g.run crowd).mailbox? ⟨"pool", 2⟩ = some m ∧ m.dropped = 1 ∧ m.closed = true := by
  have hreg : (run {} [.register "pool" 8]).register "pool" 0 = .ok (⟨"pool", 2⟩, _) := rfl
  have hown : Owned ⟨"pool", 2⟩ crowd := by
    intro s' a hm hk
    simp only [crowd, List.mem_cons, List.not_mem_nil, reduceCtorEq, Event.act.injEq, false_or,
      or_false] at hm
    rcases hm with ⟨rfl, -⟩ | ⟨rfl, -⟩ | ⟨rfl, -⟩ | ⟨rfl, -⟩ | ⟨rfl, -⟩ | ⟨rfl, -⟩ | ⟨rfl, -⟩
    exacts [rfl, rfl, rfl, rfl, absurd hk (by decide), rfl, rfl]
  have hkeep : .act ⟨"pool", 2⟩ .discard ∉ crowd := by decide
  have horder : (run {} [.register "pool" 8, .register "pool" 0]).Orderly ⟨"pool", 2⟩ crowd := by
    simp only [crowd, Orderly, reduceCtorEq, Event.act.injEq, and_false, false_imp_iff, true_and,
      forall_const, and_true]
    rintro m hm
    cases hm
    rfl
  obtain ⟨-, hfinds, ⟨m, hm, -, hdropped, hclosed, -⟩, -⟩ :=
    subscribers_see_queues_of_their_own hreg hown hkeep horder
  exact ⟨_, hreg, hown, hkeep, horder, hfinds, m, hm, hdropped, hclosed⟩

end ServerLink.Fanout
