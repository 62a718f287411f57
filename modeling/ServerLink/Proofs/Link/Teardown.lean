import ServerLink.Proofs.Link.Steps

/-!
# The end of a connection

The first teardown ends every outstanding call once, with its reason, and closes every subscription,
whose values stay. From then on nothing is outstanding or open, nothing is admitted, the reason
stays, and no slot is filled any more (`Over`, `teardown_ends_all_once`), whoever else tears the
connection down, and whatever else comes.
-/

namespace ServerLink

/-- After the end of all calls no event ends a call. -/
theorem Calls.endsOf_of_closed {c : Calls} (h : c.Inv) {reason : LinkError}
    (hc : c.closed = some reason) (e : Calls.Event) (id : Nat) : endsOf id (c.step e).2 = [] := by
  obtain ⟨hp, hw⟩ := h.closed (by rw [hc]; rfl)
  have hl := ledger_step h e id
  have hid : (c.step e).1.nextId = c.nextId := by
    rw [nextId_step]
    split
    · simp [hc]
    · rfl
  have hheld : c.held.count id = 0 := by simp [held, hp, hw, Table.keys, Table.values]
  rw [hid, hheld, if_neg (by omega)] at hl
  exact List.length_eq_zero_iff.1 (by omega)

namespace Link

/-- The connection has ended with this reason, and nothing is left of it. -/
structure Over (l : Link) (reason : LinkError) : Prop where
  why : l.calls.closed = some reason
  pending : l.calls.pending = []
  waiting : l.calls.jobs.waiting = []
  channels : l.fanout.channels = []
  mailboxes : ∀ k b, l.fanout.mailboxes.lookup k = some b → b.closed = true
  noCall : ∀ kind, l.calls.register kind = .error reason
  noSubscription : ∀ collection capacity,
    l.fanout.register collection capacity = .error (.closed "subscriptions are closed")
  noEnd : ∀ e id, endsOf id (l.calls.step e).2 = []
  noTeardown : ∀ again, l.teardown again = l

/-- The connection after some of what can happen to it: events, or operations on what its actors
share, by themselves. -/
def go (l : Link) (steps : List (Event ⊕ Op)) : Link :=
  steps.foldl (fun l s => s.elim l.step l.perform) l

/-- The values that a subscriber finds by an operation. -/
def found (l : Link) (key : Nat) (o : Op) : List Json :=
  (o.fanoutEvent?.map (l.fanout.reads key)).getD []

/-- The values that a subscriber finds by some operations, in order. -/
def foundAll (l : Link) (key : Nat) : List Op → List Json
  | [] => []
  | o :: ops => l.found key o ++ (l.perform o).foundAll key ops

variable {lost : Nat → Prop} {l m : Link} {reason : LinkError} {id : Nat}

/-! ## After the end -/

theorem Inv.over (h : l.Inv) (hc : l.calls.closed = some reason) : l.Over reason where
  why := hc
  pending := (h.calls.closed (by rw [hc]; rfl)).1
  waiting := (h.calls.closed (by rw [hc]; rfl)).2
  channels := h.fanout.closed (by rw [h.shut, hc]; rfl)
  mailboxes := by
    intro k b hb
    have hiff := h.fanout.isOpen k b (Table.mem_of_lookup hb)
    have hnone := h.fanout.closed (by rw [h.shut, hc]; rfl)
    simpa [Fanout.openKeys, hnone] using hiff
  noCall := fun kind => Calls.register_error hc
  noSubscription := fun collection capacity =>
    Fanout.register_closed (by rw [h.shut, hc]; rfl) collection capacity
  noEnd := fun e id => Calls.endsOf_of_closed h.calls hc e id
  noTeardown := by
    intro again
    have hs : l.stopped = true := by rw [h.stopped, hc]; rfl
    unfold teardown
    rw [failAll_eq, hc]
    show { l with stopped := true } = l
    rw [← hs]

theorem Inv.go (h : l.Inv) (steps : List (Event ⊕ Op)) : (l.go steps).Inv := by
  induction steps generalizing l with
  | nil => exact h
  | cons s steps ih =>
    cases s with
    | inl e => exact ih (h.event e)
    | inr o => exact ih (h.perform o)

theorem closed_go (h : l.Inv) (hc : l.calls.closed = some reason) (steps : List (Event ⊕ Op)) :
    (l.go steps).calls.closed = some reason := by
  induction steps generalizing l with
  | nil => exact hc
  | cons s steps ih =>
    cases s with
    | inl e => exact ih (h.event e) (closed_event h hc e)
    | inr o => exact ih (h.perform o) (closed_perform_of_some hc o)

/-! ## Slots after the end -/

/-- After the end an operation fills no slot. -/
theorem slots_perform_over (h : l.Inv) (hc : l.calls.closed = some reason) {o : Op}
    {how : Slot.End} (hs : (l.perform o).slots.lookup id = some how) :
    l.slots.lookup id = some how := by
  have hnone : endsOf id (l.ends o) = [] := by
    cases o with
    | answer r => exact Calls.endsOf_of_closed h.calls hc _ id
    | report r => exact Calls.endsOf_of_closed h.calls hc _ id
    | teardown why => exact Calls.endsOf_of_closed h.calls hc _ id
    | _ => rfl
  rw [slots_perform, hnone] at hs
  split at hs
  · cases hs
  · exact hs

theorem Move.slots_over (hm : Move lost l m) (h : l.Inv) (hc : l.calls.closed = some reason)
    {how : Slot.End} (hs : m.slots.lookup id = some how) : l.slots.lookup id = some how := by
  cases hm with
  | op o _ => exact slots_perform_over h hc hs
  | _ => exact hs

theorem Moves.slots_over (hm : Moves lost l m) (h : l.Inv) (hc : l.calls.closed = some reason)
    {how : Slot.End} (hs : m.slots.lookup id = some how) : l.slots.lookup id = some how := by
  induction hm with
  | refl => exact hs
  | tail hn hm ih => exact ih (hm.slots_over (h.moves hn) (Moves.closed hn hc) hs)

theorem slots_go_over (h : l.Inv) (hc : l.calls.closed = some reason)
    {steps : List (Event ⊕ Op)} {how : Slot.End}
    (hs : (l.go steps).slots.lookup id = some how) : l.slots.lookup id = some how := by
  induction steps generalizing l with
  | nil => exact hs
  | cons s steps ih =>
    cases s with
    | inl e =>
      have hs' := ih (h.event e) (closed_event h hc e) hs
      rcases step_moves h e with hm | ⟨i, text, o, -, -, -, -, hstep⟩
      · exact hm.slots_over h hc hs'
      · rw [hstep] at hs'
        exact slots_perform_over h hc hs'
    | inr o =>
      exact slots_perform_over h hc (ih (h.perform o) (closed_perform_of_some hc o) hs)

/-! ## Mailboxes after the end -/

section
variable {k : Nat} {b : Mailbox} (h : l.Inv) (hb : l.fanout.mailboxes.lookup k = some b)
  (hc : b.closed = true)
include h hb hc

/-- An operation leaves a closed mailbox to its subscriber. -/
theorem mailbox_perform {o : Op} (hd : ∀ s, o = .act s .discard → s.key ≠ k) :
    ∃ b', (l.perform o).fanout.mailboxes.lookup k = some b' ∧ b'.closed = true ∧
      l.found k o ++ b'.values = b.values := by
  rw [fanout_perform]
  cases o with
  | teardown reason =>
    dsimp only
    split
    · exact ⟨b, hb, hc, rfl⟩
    · exact Fanout.step_closed h.fanout hb hc (e := .closeAll) fun _ he => by cases he
  | register _ | answer _ | report _ | cancel _ => exact ⟨b, hb, hc, rfl⟩
  | subscribe _ _ | deliver _ _ | remove _ =>
    exact Fanout.step_closed h.fanout hb hc fun _ he => by cases he
  | act s a =>
    exact Fanout.step_closed h.fanout hb hc fun s' he => hd s' (by cases he; rfl)

theorem mailbox_performAll {ops : List Op} (hd : ∀ s, .act s .discard ∈ ops → s.key ≠ k) :
    ∃ b', (l.performAll ops).fanout.mailboxes.lookup k = some b' ∧ b'.closed = true ∧
      l.foundAll k ops ++ b'.values = b.values := by
  induction ops generalizing l b with
  | nil => exact ⟨b, hb, hc, rfl⟩
  | cons o ops ih =>
    obtain ⟨b', hb', hc', hv⟩ := mailbox_perform h hb hc (o := o) fun s hs =>
      hd s (by rw [hs]; exact List.mem_cons_self)
    obtain ⟨b'', hb'', hc'', hv'⟩ := ih (h.perform o) hb' hc' fun s hs =>
      hd s (List.mem_cons_of_mem _ hs)
    refine ⟨b'', hb'', hc'', ?_⟩
    rw [foundAll, List.append_assoc, hv', hv]

end

/-! ## The first teardown -/

/-- The end of all calls ends each outstanding call with its reason, and no other. -/
theorem endsOf_teardown (h : l.Inv) (hc : l.calls.closed = none) (reason : LinkError) (id : Nat) :
    (l.calls.Outstanding id →
      endsOf id (l.calls.step (.failAll reason)).2 = [.filled (.error reason)]) ∧
    (¬ l.calls.Outstanding id → endsOf id (l.calls.step (.failAll reason)).2 = []) := by
  refine ⟨fun ho => Calls.endsOf_failAll h.calls ho reason, fun ho => ?_⟩
  rw [Calls.step_failAll hc, Calls.endsOf_filled_all,
    List.count_eq_zero.2 (mt Calls.mem_held.1 ho)]
  rfl

theorem slots_teardown (h : l.Inv) (hc : l.calls.closed = none) (reason : LinkError) (id : Nat) :
    (l.calls.Outstanding id →
      (l.teardown reason).slots.lookup id = some (.filled (.error reason))) ∧
    (¬ l.calls.Outstanding id → (l.teardown reason).slots.lookup id = l.slots.lookup id) := by
  have hs := slots_perform l (.teardown reason) id
  rw [if_neg (by simp)] at hs
  obtain ⟨hout, hno⟩ := endsOf_teardown h hc reason id
  refine ⟨fun ho => hs.trans ?_, fun ho => hs.trans ?_⟩
  · show ((endsOf id (l.calls.step (.failAll reason)).2).getLast?).or _ = _
    rw [hout ho]
    rfl
  · show ((endsOf id (l.calls.step (.failAll reason)).2).getLast?).or _ = _
    rw [hno ho]
    rfl

/-- The mailboxes that are open are closed, with their values. -/
theorem mailbox_teardown (h : l.Inv) (hc : l.calls.closed = none) (reason : LinkError) {k : Nat}
    {b : Mailbox} (hb : l.fanout.mailboxes.lookup k = some b) :
    ∃ b', (l.teardown reason).fanout.mailboxes.lookup k = some b' ∧ b'.closed = true ∧
      b'.values = b.values ∧ (b.closed = true → b' = b) := by
  have hf : (l.teardown reason).fanout = l.fanout.closeAll.1 := by
    have := fanout_perform l (.teardown reason)
    rwa [hc] at this
  rw [hf, Fanout.lookup_closeAll h.fanout, hb]
  cases hclosed : b.closed with
  | true => exact ⟨b, by simp [hclosed], hclosed, rfl, fun _ => rfl⟩
  | false =>
    exact ⟨b.close, by simp [hclosed], b.close_closed, b.close_values, fun ht => by cases ht⟩

/-- **Teardown.** Whatever has happened on a connection: if it is open, a teardown ends every
outstanding call once, with its reason, and no other call; and it closes every mailbox that is open,
with the values that are in it. If the connection has ended, it is over, and stays so with the same
reason whatever comes; no slot is filled any more; and a subscriber that has not given its mailbox
up finds the values that are in it, in order. -/
theorem teardown_ends_all_once (h : l.Reachable) (steps : List (Event ⊕ Op)) :
    let m := l.go steps
    (m.calls.closed = none → ∀ reason,
      (m.teardown reason).Over reason ∧
      (∀ id, (m.calls.Outstanding id →
          endsOf id (m.calls.step (.failAll reason)).2 = [.filled (.error reason)] ∧
          (m.teardown reason).slots.lookup id = some (.filled (.error reason))) ∧
        (¬ m.calls.Outstanding id →
          endsOf id (m.calls.step (.failAll reason)).2 = [] ∧
          (m.teardown reason).slots.lookup id = m.slots.lookup id)) ∧
      ∀ k b, m.fanout.mailboxes.lookup k = some b →
        ∃ b', (m.teardown reason).fanout.mailboxes.lookup k = some b' ∧ b'.closed = true ∧
          b'.values = b.values ∧ (b.closed = true → b' = b)) ∧
    ∀ reason, m.calls.closed = some reason →
      m.Over reason ∧
      (∀ later, (m.go later).Over reason ∧
        ∀ id how, (m.go later).slots.lookup id = some how → m.slots.lookup id = some how) ∧
      ∀ k b, m.fanout.mailboxes.lookup k = some b →
        (∀ s, s.key = k → (m.fanout.act s .take).2 =
          (b.values.head?.map Mailbox.Found.value).getD .ended) ∧
        ∀ ops, (∀ s, .act s .discard ∈ ops → s.key ≠ k) →
          ∃ b', (m.performAll ops).fanout.mailboxes.lookup k = some b' ∧ b'.closed = true ∧
            m.foundAll k ops ++ b'.values = b.values := by
  intro m
  have hm : m.Inv := h.inv.go steps
  refine ⟨fun hc reason => ⟨?_, fun id => ⟨fun ho => ?_, fun ho => ?_⟩,
      fun k b hb => mailbox_teardown hm hc reason hb⟩,
    fun reason hc => ⟨hm.over hc, fun later => ⟨?_, fun id how hs => ?_⟩, fun k b hb => ⟨?_, ?_⟩⟩⟩
  · refine (hm.perform (.teardown reason)).over ?_
    rw [closed_perform, hc]
    rfl
  · exact ⟨(endsOf_teardown hm hc reason id).1 ho, (slots_teardown hm hc reason id).1 ho⟩
  · exact ⟨(endsOf_teardown hm hc reason id).2 ho, (slots_teardown hm hc reason id).2 ho⟩
  · exact (hm.go later).over (closed_go hm hc later)
  · exact slots_go_over hm hc hs
  · intro s hs
    have hb' : m.fanout.mailbox? s = some b := by rw [Fanout.mailbox?, hs, hb]
    have hclosed := (hm.over hc).mailboxes k b hb
    simp only [Fanout.act, Fanout.read, hb', Mailbox.take]
    cases hv : b.values <;> simp [hclosed]
  · intro ops hd
    exact mailbox_performAll hm hb ((hm.over hc).mailboxes k b hb) hd

/-- A connection with a call that waits and a subscription that holds a value. -/
def busy : List (Event ⊕ Op) :=
  [.inr (.register .plain), .inr (.subscribe "pool" 4), .inr (.deliver "pool" (.string "x"))]

theorem teardown_of_busy_connection :
    (ofSettings {}).Reachable ∧
    (((ofSettings {}).go busy).teardown (.closed "gone")).slots.lookup 1 =
      some (.filled (.error (.closed "gone"))) ∧
    ∃ b, (((ofSettings {}).go busy).teardown (.closed "gone")).fanout.mailboxes.lookup 1 = some b ∧
      b.closed = true ∧ b.values = [.string "x"] := by
  have hr : (ofSettings {}).Reachable := ⟨{}, [], rfl⟩
  obtain ⟨-, hcalls, hboxes⟩ := (teardown_ends_all_once hr busy).1 rfl (.closed "gone")
  obtain ⟨b, hb, hclosed, hvalues, -⟩ := hboxes 1 _ rfl
  exact ⟨hr, ((hcalls 1).1 (.inl (by decide))).2, b, hb, hclosed, hvalues⟩

end Link

end ServerLink
