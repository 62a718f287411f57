import ServerLink.Proofs.Subscription.Product

/-!
# Wakeups

A subscriber that sleeps at its mailbox has missed nothing: the mailbox is empty and open, and
whatever puts a value in or closes it calls the subscriber out of its sleep
(`sleeping_readers_miss_nothing`).

A delivery or a close changes the mailbox first and wakes the subscriber afterwards. What the
subscriber does in between is taken into account by `Inbox`, which counts the wakeups still to come:
whoever sleeps over something is about to be woken (`Inbox.Watched`). What happens to a mailbox as
a whole is done in such steps (`Inbox.Leads`), so a mailbox of the fanout is an inbox at any time.
-/

namespace ServerLink

namespace Mailbox

/-- The value is there, and the subscriber has not been woken yet. -/
def put (m : Mailbox) (v : Json) : Mailbox :=
  if m.values.length = m.capacity then
    { m with values := m.values.drop 1 ++ [v], dropped := m.dropped + 1 }
  else { m with values := m.values ++ [v] }

/-- The mailbox is closed, and the subscriber has not been woken yet. -/
def shut (m : Mailbox) : Mailbox := { m with closed := true }

/-- Nothing to read, and there may come something. -/
def Idle (m : Mailbox) : Prop := m.values = [] ∧ m.closed = false

/-- A subscriber waits here, and has been called if there is anything to read. -/
structure Attended (m : Mailbox) : Prop where
  waits : m.reader = .asleep ∨ m.reader = .called
  called : m.reader = .called ↔ ¬m.Idle

end Mailbox

/-- A mailbox, and how many deliveries and closes have changed it and are still to wake somebody. -/
structure Inbox where
  box : Mailbox
  owed : Nat := 0

namespace Inbox

/-- What can happen to a mailbox between one lock of it and the next. -/
inductive Step where
  | put (value : Json)
  | shut
  | wake
  | take
  | look
  | lieDown
  | stopWaiting

/-- Only who is not asleep looks, and only who has found nothing lies down. -/
def step (i : Inbox) : Step → Inbox
  | .put v => { box := i.box.put v, owed := i.owed + 1 }
  | .shut => { box := i.box.shut, owed := i.owed + 1 }
  | .wake => if i.owed = 0 then i else { box := i.box.wake, owed := i.owed - 1 }
  | .take => { i with box := i.box.take.1 }
  | .look => if i.box.reader = .asleep then i else { i with box := i.box.look.1 }
  | .lieDown => if i.box.reader = .leaving then { i with box := i.box.lieDown } else i
  | .stopWaiting => { i with box := i.box.stopWaiting }

def run (i : Inbox) (steps : List Step) : Inbox := steps.foldl step i

/-- Steps make one mailbox into another and leave no wakeup to come. -/
def Leads (m m' : Mailbox) : Prop := ∃ steps, run { box := m } steps = { box := m' }

/-- Who sleeps, or is about to, has missed nothing or will be woken. -/
structure Watched (i : Inbox) : Prop where
  asleep : i.box.reader = .asleep → i.box.Idle ∨ 0 < i.owed
  leaving : i.box.reader = .leaving → i.box.Idle ∨ 0 < i.owed ∨ i.box.permit = true

end Inbox

namespace Fanout

/-- The event is something that the subscriber does to read. -/
def Event.waitsAt (s : Subscription) (e : Event) : Bool :=
  match e with
  | .act s' _ => s' = s && !e.ends s
  | .register _ _ | .deliver _ _ | .remove _ | .closeAll => false

end Fanout

/-! ## Mailboxes -/

namespace Mailbox

variable {m : Mailbox}

theorem push_eq (m : Mailbox) (v : Json) : m.push v = (m.put v).wake := by
  unfold push put
  split <;> rfl

theorem close_eq (m : Mailbox) : m.close = m.shut.wake := rfl

theorem put_reader (m : Mailbox) (v : Json) : (m.put v).reader = m.reader := by
  unfold put
  split <;> rfl

theorem take_nothing : m.take.2 = .nothing ↔ m.Idle := by
  unfold take Idle
  cases m.values <;> cases m.closed <;> simp

theorem not_idle_push (m : Mailbox) (v : Json) : ¬(m.push v).Idle := by
  rintro ⟨hv, -⟩
  rw [push_eq, wake_values, put] at hv
  split at hv <;> simp at hv

theorem not_idle_close (m : Mailbox) : ¬m.close.Idle := by
  rintro ⟨-, hc⟩
  rw [close_closed] at hc
  cases hc

/-- A wakeup calls whoever waits. -/
theorem wake_waiting (h : m.reader = .asleep ∨ m.reader = .called) : m.wake.reader = .called := by
  unfold wake
  split
  · rfl
  · rename_i hr
    exact h.resolve_left hr

/-- Who lies down sleeps, or has used up a wakeup. -/
theorem lieDown_cases (m : Mailbox) : m.lieDown.reader = .asleep ∨ m.lieDown.permit = false := by
  unfold lieDown
  split
  · exact .inr rfl
  · exact .inl rfl

theorem look_permit (m : Mailbox) : m.look.1.permit = m.permit := by
  unfold look take
  cases m.values <;> rfl

/-- A look does not depend on where the subscriber stands. -/
theorem look_reader (m : Mailbox) (reader : Reader) :
    ({ m with reader } : Mailbox).look = m.look := by
  obtain ⟨values, capacity, dropped, closed, permit, _⟩ := m
  cases values <;> rfl

/-- Who polls and finds nothing goes to sleep. -/
theorem poll_asleep (m : Mailbox) : m.poll.2 = .nothing → m.poll.1.reader = .asleep := by
  unfold poll
  split
  · rename_i hr
    exact fun _ => hr
  · split
    · rename_i n _
      dsimp only
      split
      · rename_i hs
        exact fun _ => hs
      · rename_i hs
        -- the wakeup that kept the subscriber awake is used up, so there is none for the second time
        have hpermit : n.lieDown.look.1.permit = false :=
          (look_permit _).trans (n.lieDown_cases.resolve_left hs)
        split
        · rename_i n' hl'
          rw [hl'] at hpermit
          intro _
          rw [lieDown, if_neg (by simpa using hpermit)]
        · rename_i hno
          intro h
          exact (hno _ (Prod.ext rfl h)).elim
    · rename_i hno
      intro h
      exact (hno _ (Prod.ext rfl h)).elim

namespace Attended

theorem of_wake (h : m.wake.reader = .called) (hidle : ¬m.wake.Idle) : m.wake.Attended where
  waits := .inr h
  called := iff_of_true h hidle

variable (h : m.Attended)
include h

theorem push (v : Json) : (m.push v).Attended := by
  have hwaits := h.waits
  rw [← put_reader m v] at hwaits
  have hidle := not_idle_push m v
  rw [push_eq] at hidle ⊢
  exact of_wake (wake_waiting hwaits) hidle

theorem close : m.close.Attended := by
  have hwaits : m.shut.reader = .asleep ∨ m.shut.reader = .called := h.waits
  have hidle := not_idle_close m
  rw [close_eq] at hidle ⊢
  exact of_wake (wake_waiting hwaits) hidle

end Attended

end Mailbox

/-! ## Wakeups on the way -/

namespace Inbox

variable {i : Inbox}

/-- A delivery is a value put in, and its wakeup. -/
theorem run_put_wake (m : Mailbox) (v : Json) :
    run { box := m } [.put v, .wake] = { box := m.push v } := by
  rw [Mailbox.push_eq]
  rfl

/-- A close is one before its wakeup, and that wakeup. -/
theorem run_shut_wake (m : Mailbox) : run { box := m } [.shut, .wake] = { box := m.close } := rfl

theorem run_append (i : Inbox) (steps steps' : List Step) :
    i.run (steps ++ steps') = (i.run steps).run steps' := List.foldl_append

namespace Leads

variable {m m' m'' : Mailbox}

theorem refl (m : Mailbox) : Leads m m := ⟨[], rfl⟩

theorem trans (h : Leads m m') (h' : Leads m' m'') : Leads m m'' := by
  obtain ⟨steps, hsteps⟩ := h
  obtain ⟨steps', hsteps'⟩ := h'
  refine ⟨steps ++ steps', ?_⟩
  rw [run_append, hsteps, hsteps']

theorem push (m : Mailbox) (v : Json) : Leads m (m.push v) := ⟨_, run_put_wake m v⟩

theorem close (m : Mailbox) : Leads m m.close := ⟨_, run_shut_wake m⟩

theorem take (m : Mailbox) : Leads m m.take.1 := ⟨[.take], rfl⟩

theorem stopWaiting (m : Mailbox) : Leads m m.stopWaiting := ⟨[.stopWaiting], rfl⟩

theorem lieDown (h : m.reader = .leaving) : Leads m m.lieDown := ⟨[.lieDown], if_pos h⟩

theorem look (m : Mailbox) : Leads m m.look.1 := by
  by_cases hr : m.reader = .asleep
  · -- in steps, it gives up the wait and begins another
    have hstop : m.stopWaiting = { m with reader := .awake } := if_neg (by simp [hr])
    refine (stopWaiting m).trans ⟨[.look], ?_⟩
    rw [hstop, ← m.look_reader .awake]
    rfl
  · exact ⟨[.look], if_neg hr⟩

/-- Who has looked and found nothing may lie down. -/
theorem lieDown_look (h : m.look.2 = .nothing) : Leads m m.look.1.lieDown :=
  (look m).trans (lieDown (if_pos h))

theorem poll (m : Mailbox) : Leads m m.poll.1 := by
  unfold Mailbox.poll
  split
  · exact refl m
  · split
    · rename_i m' hlook
      have hfirst : Leads m m'.lieDown := by
        have hnothing : m.look.2 = .nothing := by rw [hlook]
        have hbox : m.look.1 = m' := by rw [hlook]
        exact hbox ▸ lieDown_look hnothing
      dsimp only
      split
      · exact hfirst
      · refine hfirst.trans ?_
        split
        · rename_i m'' hagain
          have hnothing : m'.lieDown.look.2 = .nothing := by rw [hagain]
          have hbox : m'.lieDown.look.1 = m'' := by rw [hagain]
          exact hbox ▸ lieDown_look hnothing
        · exact look m'.lieDown
    · exact look m

end Leads

/-- A wakeup that is due calls whoever sleeps. -/
theorem called_of_owed (h : i.box.reader = .asleep) (howed : 0 < i.owed) :
    (i.step .wake).box.reader = .called := by
  rw [step, if_neg (Nat.ne_of_gt howed)]
  exact Mailbox.wake_waiting (.inl h)

namespace Watched

/-- What changes the mailbox owes a wakeup. -/
theorem owing (m : Mailbox) (owed : Nat) : Watched { box := m, owed := owed + 1 } where
  asleep := fun _ => .inr (Nat.succ_pos _)
  leaving := fun _ => .inr (.inl (Nat.succ_pos _))

/-- Who is awake has no need to be watched. -/
theorem of_awake {m : Mailbox} {owed : Nat} (hr : m.reader = .awake) : Watched { box := m, owed } where
  asleep := by
    intro ha
    cases hr.symm.trans ha
  leaving := by
    intro hl
    cases hr.symm.trans hl

variable (h : i.Watched)
include h

theorem wake : (i.step .wake).Watched := by
  rw [Inbox.step]
  split
  · exact h
  · obtain ⟨hasleep, hleaving⟩ := i.box.wake_reader
    exact ⟨fun hr => absurd hr hasleep, fun hr => .inr (.inr (hleaving hr))⟩

theorem take : (i.step .take).Watched := by
  have hreader : i.box.take.1.reader = i.box.reader := by
    unfold Mailbox.take
    split <;> rfl
  have hpermit : i.box.take.1.permit = i.box.permit := by
    unfold Mailbox.take
    split <;> rfl
  have hidle : i.box.Idle → i.box.take.1.Idle := by
    rintro ⟨hv, hc⟩
    unfold Mailbox.take
    rw [hv]
    exact ⟨hv, hc⟩
  refine ⟨fun hr => (h.asleep (hreader ▸ hr)).imp_left hidle, fun hr => ?_⟩
  have hleaving := (h.leaving (hreader ▸ hr)).imp_left hidle
  rwa [← hpermit] at hleaving

/-- Who leaves has just found the mailbox idle. -/
theorem look : (i.step .look).Watched := by
  rw [Inbox.step]
  split
  · exact h
  · by_cases hn : i.box.take.2 = .nothing
    · have hidle := Mailbox.take_nothing.1 hn
      have hlook : i.box.look.1 = { i.box with reader := .leaving } := by
        simp only [Mailbox.look, Mailbox.take, hidle.1, hidle.2]
        rfl
      rw [hlook]
      refine ⟨?_, fun _ => .inl hidle⟩
      rintro ⟨⟩
    · exact of_awake (if_neg hn)

theorem lieDown : (i.step .lieDown).Watched := by
  rw [Inbox.step]
  split
  · rename_i hr
    unfold Mailbox.lieDown
    split
    · exact of_awake rfl
    · rename_i hp
      refine ⟨?_, by rintro ⟨⟩⟩
      intro _
      obtain hidle | howed | hpermit := h.leaving hr
      · exact .inl hidle
      · exact .inr howed
      · exact absurd hpermit hp
  · exact h

theorem step (t : Step) : (i.step t).Watched := by
  cases t with
  | put v => exact owing _ _
  | shut => exact owing _ _
  | wake => exact h.wake
  | take => exact h.take
  | look => exact h.look
  | lieDown => exact h.lieDown
  | stopWaiting =>
    refine of_awake ?_
    unfold Mailbox.stopWaiting
    split <;> rfl

theorem run (steps : List Step) : (i.run steps).Watched := by
  induction steps generalizing i with
  | nil => exact h
  | cons t ts ih => exact ih (h.step t)

end Watched

end Inbox

namespace Queue

variable {q : Queue}

theorem read_nothing_iff : q.read.2 = .nothing ↔ q.values = [] ∧ q.closed = false := by
  unfold read
  cases q.values <;> cases q.closed <;> simp

theorem read_ended_iff : q.read.2 = .ended ↔ q.values = [] ∧ q.closed = true := by
  unfold read
  cases q.values <;> cases q.closed <;> simp

end Queue

namespace Fanout

variable {f : Fanout} {s : Subscription} {q : Queue} {m : Mailbox} {e : Event}

/-! ## Waiting in vain -/

/-- What the subscriber does to read is a read or none. -/
theorem heard_waitsAt (h : e.waitsAt s = true) (isOpen : Bool) :
    e.ends s = false ∧ (heard s isOpen e = [.read] ∨ heard s isOpen e = []) := by
  cases e with
  | act s' a =>
    simp only [Event.waitsAt, Bool.and_eq_true, decide_eq_true_eq, Bool.not_eq_true'] at h
    refine ⟨h.2, ?_⟩
    unfold heard
    rw [if_neg (by simp [h.2])]
    dsimp only
    split
    · exact .inl rfl
    · exact .inr rfl
  | register _ _ | deliver _ _ | remove _ | closeAll => cases h

/-- Reads that find nothing are not part of a story. -/
theorem run_story_waiting {isOpen : Bool} {es : List Event}
    (h : ∀ found ∈ (q.run (story s isOpen es)).2, found = .nothing) :
    (q.run (story s isOpen es)).1 =
      (q.run (story s isOpen (es.filter fun e => !e.waitsAt s))).1 := by
  induction es generalizing q isOpen with
  | nil => rfl
  | cons e es ih =>
    rw [story, Queue.run_append] at h ⊢
    have hrest := ih fun found hm => h found (List.mem_append_right _ hm)
    rw [hrest]
    cases hw : e.waitsAt s with
    | false =>
      rw [List.filter_cons_of_pos (by simp [hw]), story, Queue.run_append]
    | true =>
      obtain ⟨hends, hheard⟩ := heard_waitsAt hw isOpen
      have hsame : (q.run (heard s isOpen e)).1 = q := by
        obtain hr | hr := hheard <;> rw [hr] at h ⊢
        · exact (Queue.read_nothing (h _ (List.mem_append_left _ (List.mem_singleton.2 rfl)))).1
        · rfl
      rw [List.filter_cons_of_neg (by simp [hw]), hsame, hends, Bool.not_false, Bool.and_true]

theorem orderly_of_not_waiting {es : List Event} (h : ∀ e ∈ es, e.waitsAt s = false) :
    f.Orderly s es := by
  induction es generalizing f with
  | nil => trivial
  | cons e es ih =>
    refine ⟨fun he => ?_, ih fun e he => h e (List.mem_cons_of_mem _ he)⟩
    have hwaits := h e List.mem_cons_self
    rw [he] at hwaits
    simp [Event.waitsAt, Event.ends] at hwaits

namespace Follows

variable (h : f.Follows s q)
include h

/-- What others do to a mailbox is to put a value in or to close it. -/
theorem box_others (hm : f.mailbox? s = some m)
    (hown : ∀ s' a, e = .act s' a → s'.key = s.key → s' = s) (hkeep : e ≠ .act s .discard)
    (hwaits : e.waitsAt s = false) : ∃ m', (f.step e).1.mailbox? s = some m' ∧
      (m' = m ∨ (∃ v, m' = m.push v) ∨ m' = m.close) := by
  have hbox := hm
  rw [mailbox?] at hm
  have hremove : ∀ s', ∃ m', (f.remove s').1.mailbox? s = some m' ∧
      (m' = m ∨ (∃ v, m' = m.push v) ∨ m' = m.close) := by
    intro s'
    rw [mailbox?, lookup_remove_eq, hm]
    refine ⟨_, rfl, ?_⟩
    split
    · exact .inr (.inr rfl)
    · exact .inl rfl
  cases e with
  | register collection capacity =>
    refine ⟨m, ?_, .inl rfl⟩
    rw [mailbox?]
    cases hc : f.closed with
    | true => simp only [Fanout.step, register_closed hc, hm]
    | false => simp only [Fanout.step, register_open hc, List.lookup_append, hm, Option.some_or]
  | deliver collection v =>
    show ∃ m', (f.updateMailboxes _ _).mailboxes.lookup s.key = some m' ∧ _
    rw [lookup_updateMailboxes, hm]
    refine ⟨_, rfl, ?_⟩
    split
    · exact .inr (.inl ⟨v, rfl⟩)
    · exact .inl rfl
  | remove s' => exact hremove s'
  | closeAll =>
    show ∃ m', f.closeAll.1.mailboxes.lookup s.key = some m' ∧ _
    rw [lookup_closeAll h.inv, hm]
    refine ⟨_, rfl, ?_⟩
    dsimp only
    split
    · exact .inl rfl
    · exact .inr (.inr rfl)
  | act s' a =>
    by_cases hs : s' = s
    · subst hs
      have hends : (Event.act s' a).ends s' = true := by simpa [Event.waitsAt] using hwaits
      cases a with
      | close => exact hremove s'
      | discard => exact absurd rfl hkeep
      | take | look | poll | lieDown | stopWaiting => cases hends
    · have hk : s'.key ≠ s.key := fun hk => hs (hown s' a rfl hk)
      exact ⟨m, (h.box_other hk a).trans hbox, .inl rfl⟩

/-- **Whoever waits is called once there is something to read**, and sleeps until then. -/
theorem attended_run (hm : f.mailbox? s = some m) (hattended : m.Attended) {es : List Event}
    (hown : Owned s es) (hkeep : .act s .discard ∉ es) (hwaits : ∀ e ∈ es, e.waitsAt s = false) :
    ∃ m', (f.run es).mailbox? s = some m' ∧ m'.Attended := by
  induction es generalizing f q m with
  | nil => exact ⟨m, hm, hattended⟩
  | cons e es ih =>
    have howne := hown.of_mem List.mem_cons_self
    have hkeepe := ne_of_mem_of_not_mem List.mem_cons_self hkeep
    have hwaitse := hwaits e List.mem_cons_self
    have horder := orderly_of_not_waiting (f := f) hwaits
    obtain ⟨hstep, -⟩ := h.step howne hkeepe horder.1
    obtain ⟨m', hm', hchange⟩ := h.box_others hm howne hkeepe hwaitse
    refine ih hstep hm' ?_ (hown.subset (List.subset_cons_self ..))
      (List.not_mem_of_not_mem_cons hkeep) fun e he => hwaits e (List.mem_cons_of_mem _ he)
    obtain rfl | ⟨v, rfl⟩ | rfl := hchange
    · exact hattended
    · exact hattended.push v
    · exact hattended.close

theorem mailbox?_read (hm : f.mailbox? s = some m) (how : Mailbox → Mailbox × Mailbox.Found) :
    (f.read s how).1.mailbox? s = some (how m).1 := by
  rw [h.inv.read_eq hm, mailbox?, lookup_updateMailboxes, ← mailbox?, hm]
  simp

/-- What is done to a mailbox as a whole is done in steps of an inbox. -/
theorem leads_step (hm : f.mailbox? s = some m)
    (hown : ∀ s' a, e = .act s' a → s'.key = s.key → s' = s) (hkeep : e ≠ .act s .discard)
    (hlie : e = .act s .lieDown → m.reader = .leaving) :
    ∃ m', (f.step e).1.mailbox? s = some m' ∧ Inbox.Leads m m' := by
  cases hw : e.waitsAt s with
  | false =>
    obtain ⟨m', hm', rfl | ⟨v, rfl⟩ | rfl⟩ := h.box_others hm hown hkeep hw
    · exact ⟨m', hm', .refl m'⟩
    · exact ⟨_, hm', .push m v⟩
    · exact ⟨_, hm', .close m⟩
  | true =>
    have hread := h.mailbox?_read hm
    have hupdate (change : Mailbox → Mailbox) :
        (f.updateMailbox s.key change).mailbox? s = some (change m) := by
      rw [updateMailbox_eq, mailbox?, lookup_updateMailboxes, ← mailbox?, hm]
      simp
    cases e with
    | register _ _ | deliver _ _ | remove _ | closeAll => cases hw
    | act s' a =>
      obtain ⟨rfl, hends⟩ : s' = s ∧ (Event.act s' a).ends s = false := by
        simpa [Event.waitsAt] using hw
      cases a with
      | close | discard => simp [Event.ends] at hends
      | take => exact ⟨_, hread _, .take m⟩
      | look => exact ⟨_, hread _, .look m⟩
      | poll => exact ⟨_, hread _, .poll m⟩
      | lieDown => exact ⟨_, hupdate _, .lieDown (hlie rfl)⟩
      | stopWaiting => exact ⟨_, hupdate _, .stopWaiting m⟩

theorem leads_run (hm : f.mailbox? s = some m) {es : List Event} (hown : Owned s es)
    (hkeep : .act s .discard ∉ es) (horder : f.Orderly s es) :
    ∃ m', (f.run es).mailbox? s = some m' ∧ Inbox.Leads m m' := by
  induction es generalizing f q m with
  | nil => exact ⟨m, hm, .refl m⟩
  | cons e es ih =>
    have howne := hown.of_mem List.mem_cons_self
    have hkeepe := ne_of_mem_of_not_mem List.mem_cons_self hkeep
    obtain ⟨m', hm', hleads⟩ := h.leads_step hm howne hkeepe fun he => horder.1 he m hm
    obtain ⟨m'', hm'', hleads'⟩ := ih (h.step howne hkeepe horder.1).1 hm'
      (hown.subset (List.subset_cons_self ..)) (List.not_mem_of_not_mem_cons hkeep) horder.2
    exact ⟨m'', hm'', hleads.trans hleads'⟩

/-- A read of any kind finds what is there. -/
theorem act_found {a : Act} (ha : a.reads = true) : (f.act s a).2 = q.read.2 := by
  cases a with
  | take => exact (h.box_read fun _ hm => hm.take).2
  | look => exact (h.box_read fun _ hm => hm.look).2
  | poll => exact (h.box_read fun _ hm => hm.poll).2
  | close | discard | lieDown | stopWaiting => cases ha

end Follows

/-- **No wakeup is lost.** At any time after its registration, as long as a subscriber keeps its
handle and lies down only when it has looked and found nothing: a poll finds nothing just when its
mailbox is empty and open, and then the subscriber sleeps. Whoever sleeps has an empty and open
mailbox, and whatever others do from then on, is called as soon as it is not. Waiting in vain, however
often it is given up and begun anew, leaves in the mailbox what would be there without it. The end is
found only when no value is left. And if a delivery or a close has changed the mailbox and not yet
come to wake the subscriber, whoever sleeps over it is called by the next wakeup. -/
theorem sleeping_readers_miss_nothing {before es : List Event} {c : String} {capacity : Nat}
    {g : Fanout} (hreg : (run {} before).register c capacity = .ok (s, g)) (hown : Owned s es)
    (hkeep : .act s .discard ∉ es) (horder : g.Orderly s es) :
    let f := g.run es
    ∃ m, f.mailbox? s = some m ∧
      ((f.act s .poll).2 = .nothing ↔ m.Idle) ∧
      ((f.act s .poll).2 = .nothing →
        ∃ m', (f.act s .poll).1.mailbox? s = some m' ∧ m'.reader = .asleep ∧ m'.Idle) ∧
      (m.reader = .asleep → m.Idle ∧
        ∀ more, Owned s more → .act s .discard ∉ more → (∀ e ∈ more, e.waitsAt s = false) →
          ∃ m', (f.run more).mailbox? s = some m' ∧ m'.Attended) ∧
      (∀ wait, Owned s wait → .act s .discard ∉ wait → f.Orderly s wait →
        (∀ found ∈ f.findsAll s wait, found = .nothing) →
        ∃ m' m'', (f.run wait).mailbox? s = some m' ∧
          (f.run (wait.filter fun e => !e.waitsAt s)).mailbox? s = some m'' ∧
          m'.values = m''.values ∧ m'.dropped = m''.dropped ∧ m'.closed = m''.closed) ∧
      (∀ a, (f.act s a).2 = .ended → m.values = [] ∧ m.closed = true) ∧
      ∀ steps, let i := Inbox.run { box := m } steps
        i.box.reader = .asleep →
          i.box.Idle ∨ 0 < i.owed ∧ (i.step .wake).box.reader = .called := by
  intro f
  have hinv : (run {} before).Inv := Inv.empty.run before
  obtain ⟨q, hfollows⟩ : ∃ q, f.Follows s q :=
    ⟨_, ((follows_register hinv hreg).run hown hkeep horder).1⟩
  obtain ⟨m, hm, hshows⟩ := hfollows.box
  have hidle : m.Idle ↔ q.values = [] ∧ q.closed = false := by
    rw [Mailbox.Idle, hshows.values, hshows.closed]
  have hpoll : (f.act s .poll).2 = .nothing ↔ m.Idle := by
    rw [hfollows.act_found rfl, Queue.read_nothing_iff, hidle]
  refine ⟨m, hm, hpoll, fun hn => ?_, fun hr => ⟨hshows.asleep hr, ?_⟩, ?_, ?_, ?_⟩
  · have hread := hfollows.inv.read_eq hm Mailbox.poll
    have hfound : m.poll.2 = .nothing := by rwa [act, hread] at hn
    have hvalues := m.poll_values
    rw [hfound] at hvalues
    exact ⟨m.poll.1, hfollows.mailbox?_read hm Mailbox.poll, m.poll_asleep hfound,
      hvalues.trans (hpoll.1 hn).1, m.poll_closed.trans (hpoll.1 hn).2⟩
  · intro more hown hkeep hwaits
    refine hfollows.attended_run hm ⟨.inl hr, ?_⟩ hown hkeep hwaits
    simp [hr, Mailbox.Idle, hshows.asleep hr]
  · intro wait hown hkeep horder hvain
    obtain ⟨hwaited, hfinds⟩ := hfollows.run hown hkeep horder
    have hothers : ∀ e ∈ wait.filter (fun e => !e.waitsAt s), e.waitsAt s = false := by simp
    obtain ⟨hwithout, -⟩ := hfollows.run (hown.subset (List.filter_subset_self ..))
      (fun he => hkeep (List.mem_of_mem_filter he)) (orderly_of_not_waiting hothers)
    obtain ⟨m', hm', hshows'⟩ := hwaited.box
    obtain ⟨m'', hm'', hshows''⟩ := hwithout.box
    rw [← run_story_waiting (by rwa [← hfinds])] at hshows''
    exact ⟨m', m'', hm', hm'', hshows'.values.trans hshows''.values.symm,
      hshows'.dropped.trans hshows''.dropped.symm, hshows'.closed.trans hshows''.closed.symm⟩
  · intro a ha
    have hreads : a.reads = true := by
      cases a with
      | take | look | poll => rfl
      | close | discard | lieDown | stopWaiting => cases ha
    rw [hfollows.act_found hreads, Queue.read_ended_iff] at ha
    rwa [hshows.values, hshows.closed]
  · intro steps i hr
    -- the mailbox is an inbox that began with nobody asleep
    have hwatched : Inbox.Watched { box := m } := by
      obtain ⟨-, -, -, hbox, -⟩ := register_fresh hinv hreg
      obtain ⟨m', hm', before, hbefore⟩ :=
        (follows_register hinv hreg).leads_run hbox hown hkeep horder
      obtain rfl := Option.some.inj (hm'.symm.trans hm)
      rw [← hbefore]
      exact (Inbox.Watched.of_awake rfl).run before
    exact ((hwatched.run steps).asleep hr).imp_right fun howed =>
      ⟨howed, Inbox.called_of_owed hr howed⟩

/-- The subscriber looks, and a value comes before it lies down: it goes on, reads it, and sleeps
only the second time. -/
def shortRest : List Event :=
  [.act ⟨"pool", 1⟩ .look, .deliver "pool" (.string "a"), .act ⟨"pool", 1⟩ .lieDown,
    .act ⟨"pool", 1⟩ .poll, .act ⟨"pool", 1⟩ .poll]

theorem short_rest_ends_in_sleep : ∃ g : Fanout,
    (run {} []).register "pool" 2 = .ok (⟨"pool", 1⟩, g) ∧ Owned ⟨"pool", 1⟩ shortRest ∧
    .act ⟨"pool", 1⟩ .discard ∉ shortRest ∧ g.Orderly ⟨"pool", 1⟩ shortRest ∧
    (((g.run shortRest).act ⟨"pool", 1⟩ .poll).2 = .nothing) ∧
    ∃ m, ((g.run shortRest).run [.deliver "disk" (.string "x"), .closeAll]).mailbox? ⟨"pool", 1⟩ =
      some m ∧ m.reader = .called := by
  have hreg : (run {} []).register "pool" 2 = .ok (⟨"pool", 1⟩, _) := rfl
  have hown : Owned ⟨"pool", 1⟩ shortRest := by
    intro s' a hm hk
    simp only [shortRest, List.mem_cons, List.not_mem_nil, reduceCtorEq, Event.act.injEq, false_or,
      or_false] at hm
    obtain ⟨hs, -⟩ | ⟨hs, -⟩ | ⟨hs, -⟩ | ⟨hs, -⟩ := hm <;> exact hs
  have hkeep : .act ⟨"pool", 1⟩ .discard ∉ shortRest := by decide
  have horder : (run {} [.register "pool" 2]).Orderly ⟨"pool", 1⟩ shortRest := by
    simp only [shortRest, Orderly, reduceCtorEq, Event.act.injEq, and_false, false_imp_iff, true_and,
      forall_const, and_true]
    rintro m hm
    cases hm
    rfl
  obtain ⟨m, hm, hpoll, -, hsleeps, -⟩ := sleeping_readers_miss_nothing hreg hown hkeep horder
  cases hm
  obtain ⟨m', hm', hattended⟩ := (hsleeps rfl).2
    [.deliver "disk" (.string "x"), .closeAll] (by intro s' a hm; simp at hm) (by decide) (by decide)
  refine ⟨_, hreg, hown, hkeep, horder, hpoll.2 ⟨rfl, rfl⟩, m', hm', hattended.called.2 ?_⟩
  cases hm'
  rintro ⟨-, ⟨⟩⟩

end Fanout

end ServerLink
