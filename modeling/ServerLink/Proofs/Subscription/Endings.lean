import ServerLink.Proofs.Subscription.History

/-!
# Subscriptions end once

A subscription is open until the first event that ends it, whichever that is, and over from then on:
its mailbox is closed for good, and whoever ends it again changes nothing (`registrations_end_once`).
So the open subscriptions are those that were registered less those that were removed or closed with
all others (`total_run`).
-/

namespace ServerLink.Fanout

/-- The subscription has its entry and an open mailbox, and can be taken out. -/
structure IsOpen (f : Fanout) (s : Subscription) : Prop where
  listed : s.key ∈ f.openKeys
  mailbox : ∀ b, f.mailbox? s = some b → b.closed = false
  remove : (f.remove s).2 = true

/-- The subscription has no entry and no open mailbox, and to end it again changes nothing, except
that its subscriber may give the mailbox up. -/
structure IsOver (f : Fanout) (s : Subscription) : Prop where
  unlisted : s.key ∉ f.openKeys
  mailbox : ∀ b, f.mailbox? s = some b → b.closed = true
  remove : f.remove s = (f, false)
  close : f.close s = f
  discard : f.discard s = { f with mailboxes := Table.erase f.mailboxes s.key }
  closeAll : f.closeAll.1.mailbox? s = f.mailbox? s

/-- How many subscriptions an event registers. -/
def registrations (f : Fanout) (e : Event) : Nat :=
  match (f.step e).2 with
  | .registered (.ok _) => 1
  | _ => 0

/-- How many subscriptions an event takes out one by one. -/
def removals (f : Fanout) : Event → Nat
  | .remove s | .act s .close | .act s .discard => if (f.remove s).2 then 1 else 0
  | .register _ _ | .deliver _ _ | .closeAll | .act _ _ => 0

/-- How many subscriptions an event says it has closed with all others. -/
def closings (f : Fanout) (e : Event) : Nat :=
  match (f.step e).2 with
  | .closedAll n => n
  | _ => 0

/-- The sum over the events of a run. -/
def tally (number : Fanout → Event → Nat) (f : Fanout) : List Event → Nat
  | [] => 0
  | e :: es => number f e + tally number (f.step e).1 es

/-- The values that a subscriber finds in its mailbox in a run, in order. -/
def readsAll (f : Fanout) (key : Nat) : List Event → List Json
  | [] => []
  | e :: es => f.reads key e ++ (f.step e).1.readsAll key es

variable {f : Fanout} {s : Subscription} {k : Nat} {b : Mailbox}

/-! ## Entries -/

theorem mem_openKeys_iff (h : f.Inv) : k ∈ f.openKeys ↔ ∃ c, k ∈ f.subscribers c := by
  refine ⟨fun hk => ?_, fun ⟨c, hk⟩ => mem_openKeys hk⟩
  obtain ⟨keys, hkeys, hk⟩ := List.mem_flatten.1 hk
  obtain ⟨⟨c, keys'⟩, hm, rfl⟩ := List.mem_map.1 hkeys
  refine ⟨c, ?_⟩
  rw [subscribers, Table.lookup_of_mem h.collections hm]
  exact hk

theorem closed_iff (h : f.Inv) (hb : f.mailboxes.lookup k = some b) :
    b.closed = true ↔ k ∉ f.openKeys := by
  rw [← h.isOpen k b (Table.mem_of_lookup hb), Bool.not_eq_false]

theorem isOpen_of_listed (h : f.Inv) (hs : s.key ∈ f.subscribers s.collection) : f.IsOpen s where
  listed := mem_openKeys hs
  mailbox := fun b hb => (h.isOpen _ b (Table.mem_of_lookup hb)).2 (mem_openKeys hs)
  remove := by rw [Fanout.remove, if_pos hs]

theorem isOver_of_unlisted (h : f.Inv) (hs : s.key ∉ f.openKeys) : f.IsOver s := by
  have hremove : f.remove s = (f, false) := by
    rcases remove_cases f s with ⟨-, hr⟩ | ⟨hk, -⟩
    · exact hr
    · exact absurd (mem_openKeys hk) hs
  have hmailbox : ∀ b, f.mailbox? s = some b → b.closed = true :=
    fun b hb => (closed_iff h hb).2 hs
  have hclose : f.close s = f := by rw [Fanout.close, hremove]
  refine ⟨hs, hmailbox, hremove, hclose, by rw [Fanout.discard, hclose], ?_⟩
  rw [mailbox?, lookup_closeAll h]
  cases hb : f.mailboxes.lookup s.key with
  | none => rw [mailbox?, hb]; rfl
  | some b => simp [mailbox?, hb, hmailbox b hb]

/-! ## Channels without keys -/

theorem nil_mem_setSubscribers {channels : Table String (List Nat)} {c collection : String}
    {keys : List Nat} (h : (c, []) ∈ setSubscribers channels collection keys) :
    (c, []) ∈ channels := by
  unfold setSubscribers at h
  split at h
  · exact (Table.mem_erase.1 h).1
  · rename_i hkeys
    rw [List.isEmpty_iff] at hkeys
    split at h
    · obtain ⟨e, he, heq⟩ := List.mem_map.1 h
      split at heq
      · cases heq
        exact absurd rfl hkeys
      · exact heq ▸ he
    · rcases List.mem_append.1 h with h | h
      · exact h
      · cases List.mem_singleton.1 h
        exact absurd rfl hkeys

theorem nil_mem_step {c : String} (e : Event) (h : (c, []) ∈ (f.step e).1.channels) :
    (c, []) ∈ f.channels := by
  have hremove : ∀ s, (c, []) ∈ (f.remove s).1.channels → (c, []) ∈ f.channels := by
    intro s h
    rcases remove_cases f s with ⟨-, hs⟩ | ⟨-, hs⟩ <;> rw [hs] at h
    · exact h
    · exact nil_mem_setSubscribers h
  have hread : ∀ s how, (f.read s how).1.channels = f.channels := fun s how => by
    unfold read
    split <;> rfl
  cases e with
  | register collection capacity =>
    cases hc : f.closed with
    | true => simpa only [step, register_closed hc] using h
    | false =>
      simp only [step, register_open hc] at h
      exact nil_mem_setSubscribers h
  | remove s => exact hremove s h
  | closeAll => cases h
  | deliver collection v => exact h
  | act s a =>
    cases a with
    | close | discard => exact hremove s h
    | take | look | poll => exact hread s _ ▸ h
    | lieDown | stopWaiting => exact h

theorem nil_not_mem_run {c : String} (h : (c, []) ∉ f.channels) (es : List Event) :
    (c, []) ∉ (f.run es).channels := by
  induction es generalizing f with
  | nil => exact h
  | cons e es ih => exact ih (mt (nil_mem_step e) h)

/-! ## How many are open -/

/-- One event changes the number of open subscriptions by what it registers and ends. -/
theorem total_step (h : f.Inv) (e : Event) :
    (f.step e).1.total + f.removals e + f.closings e = f.total + f.registrations e := by
  have hremove : ∀ s, (f.remove s).1.total + (if (f.remove s).2 then 1 else 0) = f.total := by
    intro s
    rcases remove_cases f s with ⟨-, hs⟩ | ⟨hk, hs⟩ <;> rw [hs]
    · rfl
    · have hlen := (h.openKeys_remove hk).length_eq
      -- no key stands twice, so taking out all that equal this one takes out one
      have herase : f.openKeys.filter (fun k => decide (k ≠ s.key)) = f.openKeys.erase s.key := by
        rw [h.once.erase_eq_filter]
        exact List.filter_congr fun k _ => by rw [Bool.eq_iff_iff]; simp
      rw [herase, List.length_erase_of_mem (mem_openKeys hk)] at hlen
      have hpos : 0 < f.total := List.length_pos_of_mem (mem_openKeys hk)
      exact (congrArg (· + 1) hlen).trans (Nat.sub_add_cancel hpos)
  have hread : ∀ s how, (f.read s how).1.total = f.total := fun s how => by
    unfold read
    split <;> rfl
  cases e with
  | register collection capacity =>
    cases hc : f.closed with
    | true => simp [step, registrations, removals, closings, register_closed hc]
    | false =>
      have hlen := (h.openKeys_register collection).length_eq
      rw [List.length_append] at hlen
      simp only [registrations, removals, closings, step, register_open hc, Nat.add_zero]
      exact hlen
  | remove s => exact hremove s
  | closeAll => simp [step, registrations, removals, closings, closeAll, total, updateMailboxes]
  | deliver collection v => rfl
  | act s a =>
    cases a with
    | close | discard => exact hremove s
    | take | look | poll => exact hread s _
    | lieDown | stopWaiting => rfl

/-- **What is open is what was registered and not ended.** -/
theorem total_run (h : f.Inv) (es : List Event) :
    (f.run es).total + f.tally removals es + f.tally closings es =
      f.total + f.tally registrations es := by
  induction es generalizing f with
  | nil => rfl
  | cons e es ih =>
    have hstep := total_step h e
    have hrun := ih (h.step e)
    rw [run_cons]
    simp only [tally]
    omega

theorem closeAll_closed (h : f.Inv) (hc : f.closed = true) : f.closeAll = (f, 0) := by
  have hnone := h.closed hc
  cases f
  simp_all [Fanout.closeAll, total, updateMailboxes]

/-! ## Mailboxes -/

/-- A mailbox is there until its subscriber gives it up. -/
theorem mailbox_step (hk : k ∈ Table.keys f.mailboxes) {e : Event}
    (hd : ∀ s, e = .act s .discard → s.key ≠ k) : k ∈ Table.keys (f.step e).1.mailboxes := by
  have hremove : ∀ s, k ∈ Table.keys (f.remove s).1.mailboxes := by
    intro s
    rcases remove_cases f s with ⟨-, hs⟩ | ⟨-, hs⟩ <;> rw [hs]
    · exact hk
    · rw [updateMailbox_eq, keys_updateMailboxes]
      exact hk
  have hupdate : ∀ key change, k ∈ Table.keys (f.updateMailbox key change).mailboxes := by
    intro key change
    rw [updateMailbox_eq, keys_updateMailboxes]
    exact hk
  have hread : ∀ s how, k ∈ Table.keys (f.read s how).1.mailboxes := by
    intro s how
    unfold read
    split
    · exact hupdate s.key _
    · exact hk
  cases e with
  | register collection capacity =>
    cases hc : f.closed with
    | true => simpa only [step, register_closed hc] using hk
    | false =>
      simp only [step, register_open hc, Table.keys, List.map_append, List.mem_append]
      exact .inl hk
  | deliver collection v => exact (keys_updateMailboxes _ _ _).symm ▸ hk
  | remove s => exact hremove s
  | closeAll => exact (keys_updateMailboxes _ _ _).symm ▸ hk
  | act s a =>
    cases a with
    | close => exact hremove s
    | discard =>
      have hne : k ≠ s.key := Ne.symm (hd s rfl)
      show k ∈ Table.keys (Table.erase (f.remove s).1.mailboxes s.key)
      rw [← Table.lookup_isSome, Table.lookup_erase_ne hne, Table.lookup_isSome]
      exact hremove s
    | take | look | poll => exact hread s _
    | lieDown | stopWaiting => exact hupdate s.key _

theorem mailbox_run (hk : k ∈ Table.keys f.mailboxes) {es : List Event}
    (hd : ∀ s, .act s .discard ∈ es → s.key ≠ k) : k ∈ Table.keys (f.run es).mailboxes := by
  induction es generalizing f with
  | nil => exact hk
  | cons e es ih =>
    exact ih (mailbox_step hk fun s hs => hd s (by rw [hs]; exact List.mem_cons_self))
      fun s hs => hd s (List.mem_cons_of_mem _ hs)

/-- A mailbox that is closed stays closed, and only its subscriber's reads take values out. -/
theorem run_closed (h : f.Inv) (hb : f.mailboxes.lookup k = some b) (hc : b.closed = true)
    {es : List Event} (hd : ∀ s, .act s .discard ∈ es → s.key ≠ k) :
    ∃ b', (f.run es).mailboxes.lookup k = some b' ∧ b'.closed = true ∧
      f.readsAll k es ++ b'.values = b.values := by
  induction es generalizing f b with
  | nil => exact ⟨b, hb, hc, rfl⟩
  | cons e es ih =>
    obtain ⟨b', hb', hc', hv⟩ := step_closed h hb hc (e := e) fun s hs =>
      hd s (by rw [hs]; exact List.mem_cons_self)
    obtain ⟨b'', hb'', hc'', hv'⟩ := ih (h.step e) hb' hc' fun s hs =>
      hd s (List.mem_cons_of_mem _ hs)
    refine ⟨b'', hb'', hc'', ?_⟩
    rw [readsAll, List.append_assoc, hv', hv]

/-! ## Registrations -/

section
variable {c : String} {capacity : Nat} {g : Fanout} (h : f.Inv)
  (hreg : f.register c capacity = .ok (s, g))
include h hreg

/-- A subscription has its entry until the first event that ends it. -/
theorem listed_iff (es : List Event) :
    (s.key ∈ (g.run es).subscribers s.collection ↔ ∀ e ∈ es, e.ends s = false) ∧
      (s.key ∈ (g.run es).openKeys ↔ ∀ e ∈ es, e.ends s = false) := by
  obtain ⟨rfl, hkey, hinv, -, hfresh⟩ := register_fresh h hreg
  have hlisted : s.key ∈ (g.run es).subscribers s.collection ↔ ∀ e ∈ es, e.ends s = false := by
    rw [listed_run (Nat.le_of_eq hkey), hfresh]
    simp
  refine ⟨hlisted, fun hk => ?_, fun hno => mem_openKeys (hlisted.2 hno)⟩
  obtain ⟨c', hc'⟩ := (mem_openKeys_iff (hinv.run es)).1 hk
  have hother := (listed_run (s := ⟨c', s.key⟩) (Nat.le_of_eq hkey) es).1 hc'
  rw [(hfresh c').1 hother.1] at hc'
  exact hlisted.1 hc'

end

/-- **A registration ends once.** At any time: no key stands twice, no collection is listed without
keys, a mailbox is closed just when its key is not listed, there are as many open subscriptions as
were registered and neither removed nor closed with all others, and a mailbox that is closed stays
closed and gets no value any more. And a subscription is open until the first event that ends it,
its removal, a close by its handle or a closer, the end of its handle or that of all subscriptions;
from then on it is over, whatever happens. Its mailbox is there until the subscriber gives it up. -/
theorem registrations_end_once (es : List Event) :
    let f := run {} es
    (f.openKeys.Nodup ∧ (Table.keys f.channels).Nodup ∧ (∀ c, (c, []) ∉ f.channels)) ∧
    (∀ k b, f.mailboxes.lookup k = some b → (b.closed = true ↔ k ∉ f.openKeys)) ∧
    f.total + tally removals {} es + tally closings {} es = tally registrations {} es ∧
    f.closeAll.2 = f.openKeys.length ∧ f.closeAll.1.closeAll = (f.closeAll.1, 0) ∧
    (∀ k b, f.mailboxes.lookup k = some b → b.closed = true → ∀ later,
      (∀ s, .act s .discard ∈ later → s.key ≠ k) →
      ∃ b', (f.run later).mailboxes.lookup k = some b' ∧ b'.closed = true ∧
        f.readsAll k later ++ b'.values = b.values) ∧
    ∀ before c capacity since s g, es = before ++ .register c capacity :: since →
      (run {} before).register c capacity = .ok (s, g) →
      ((∀ s', .act s' .discard ∈ since → s'.key ≠ s.key) → (f.mailbox? s).isSome) ∧
      ((∀ e ∈ since, e.ends s = false) → f.IsOpen s ∧
        ∀ e, e.ends s = true → (f.step e).1.IsOver s) ∧
      ((∃ e ∈ since, e.ends s = true) → f.IsOver s) := by
  intro f
  have hinv : f.Inv := Inv.empty.run es
  refine ⟨⟨hinv.once, hinv.collections, fun c => nil_not_mem_run (by simp) es⟩,
    fun k b hb => closed_iff hinv hb, ?_, rfl, closeAll_closed hinv.closeAll rfl,
    fun k b hb hc later hd => run_closed hinv hb hc hd, ?_⟩
  · have := total_run Inv.empty es
    simpa [total] using this
  · intro before c capacity since s g hes hreg
    have hbefore : (run {} before).Inv := Inv.empty.run before
    have hf : f = g.run since := by
      show run {} es = _
      rw [hes, run_append, run_cons]
      simp only [step, hreg]
    obtain ⟨hlisted, hopen⟩ := listed_iff hbefore hreg since
    refine ⟨fun hd => ?_,
      fun hno => ⟨isOpen_of_listed hinv (hf ▸ hlisted.2 hno), fun e he => ?_⟩, ?_⟩
    · obtain ⟨-, -, -, hbox, -⟩ := register_fresh hbefore hreg
      rw [mailbox?, Table.lookup_isSome, hf]
      exact mailbox_run (Table.lookup_isSome.1 (by rw [← mailbox?, hbox]; rfl)) hd
    · refine isOver_of_unlisted (hinv.step e) fun hk => ?_
      have hall := (listed_iff hbefore hreg (since ++ [e])).2.1 (by
        rwa [run_append, ← hf])
      rw [hall e (by simp)] at he
      cases he
    · rintro ⟨e, hm, he⟩
      refine isOver_of_unlisted hinv fun hk => ?_
      rw [hf, hopen] at hk
      rw [hk e hm] at he
      cases he

/-- One subscription is taken out, given up and closed again, and the other is closed with all. -/
def farewell : List Event :=
  [.register "pool" 4, .register "pool" 4, .deliver "pool" (.string "x"), .remove ⟨"pool", 1⟩,
    .remove ⟨"disk", 2⟩, .act ⟨"pool", 1⟩ .discard, .act ⟨"pool", 1⟩ .close, .closeAll,
    .register "disk" 1, .deliver "pool" (.string "y"), .closeAll]

theorem farewell_to_both :
    (run {} farewell).IsOver ⟨"pool", 1⟩ ∧ (run {} farewell).IsOver ⟨"pool", 2⟩ ∧
    tally registrations {} farewell = 2 ∧ tally removals {} farewell = 1 ∧
    tally closings {} farewell = 1 ∧ (run {} farewell).total = 0 ∧
    (run {} (farewell.take 7)).IsOpen ⟨"pool", 2⟩ ∧
    ((run {} farewell).mailbox? ⟨"pool", 2⟩).isSome := by
  obtain ⟨-, -, htotal, -, -, -, hends⟩ := registrations_end_once farewell
  have hfirst := hends [] "pool" 4 _ ⟨"pool", 1⟩ _ rfl rfl
  have hsecond := hends [.register "pool" 4] "pool" 4 _ ⟨"pool", 2⟩ _ rfl rfl
  have hbefore := (registrations_end_once (farewell.take 7)).2.2.2.2.2.2
    [.register "pool" 4] "pool" 4 _ ⟨"pool", 2⟩ _ rfl rfl
  have hkept : ∀ s', .act s' .discard ∈ farewell.drop 2 → s'.key ≠ 2 := by
    intro s' hm
    have hs' : s' = ⟨"pool", 1⟩ := by simpa [farewell] using hm
    rw [hs']
    decide
  have hopened : tally registrations {} farewell = 2 := rfl
  have hremoved : tally removals {} farewell = 1 := rfl
  have hclosed : tally closings {} farewell = 1 := rfl
  rw [hopened, hremoved, hclosed] at htotal
  exact ⟨hfirst.2.2 ⟨.remove ⟨"pool", 1⟩, by simp, by decide⟩,
    hsecond.2.2 ⟨.closeAll, by simp, by decide⟩, hopened, hremoved, hclosed,
    Nat.add_right_cancel (Nat.add_right_cancel htotal),
    (hbefore.2.1 (by decide)).1, hsecond.1 hkept⟩

end ServerLink.Fanout
