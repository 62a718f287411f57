import ServerLink.Proofs.Link.Frames

/-!
# What the actors have in hand

A call, a subscription that nobody has got yet, a place in the line and the question for job
reports belong to the actor that took them, until it gives them back. What an actor does in its
turn is made of deeds (`Deed`), each of which takes one thing, gives one back or touches none. So a
turn leaves alone what others have in hand, unless it ends the connection (`Deeds.unaffected`).
-/

namespace ServerLink

/-- What an actor has in hand. -/
structure Hand where
  call : Option (Nat × Call.Kind) := none
  /-- One that is open, and that no caller has got yet. -/
  subscription : Option Subscription := none
  /-- The actor is in the line for the write half. -/
  inLine : Bool := false
  /-- The actor is to learn whether the server sends job reports. -/
  asks : Bool := false
deriving DecidableEq

namespace Hand

/-- The hand of one who makes a call as well. Whoever has written is no longer in the line. -/
def making (h : Hand) (x : Exchange) : Hand :=
  { h with call := some (x.id, x.kind), inLine := x.stage ≠ .waiting }

def done (h : Hand) : Hand := { h with call := none, inLine := false }

def after (h : Hand) : Exchange.Progress → Hand
  | .going x => h.making x
  | .over _ => h.done

end Hand

def Release.hand : Release → Hand
  | .queued => { inLine := true }
  | .closing => {}

def Task.hand : Task → Hand
  | .call x _ | .login x | .readVersion x => ({} : Hand).making x
  | .askJobs x _ _ _ => ({ asks := true } : Hand).making x
  | .subscribe s x => ({ subscription := some s } : Hand).making x
  | .close stage => stage.hand
  | .awaitJobs _ _ _ | .join => {}

def Reader.State.hand : Reader.State → Hand
  | .releasing stage => stage.hand
  | .running | .ended => {}

def Probe.State.hand : Probe.State → Hand
  | .asking x => ({} : Hand).making x
  | .releasing stage => stage.hand
  | .off | .resting | .ended => {}

def Probe.State.exchange? : Probe.State → Option Exchange
  | .asking x => some x
  | .off | .resting | .releasing _ | .ended => none

namespace Link

def hand (l : Link) : Actor → Hand
  | .reader => l.reader.hand
  | .probe => l.probe.hand
  | .caller task => ((l.tasks.lookup task).map Task.hand).getD {}

/-- The call that an actor is making. -/
def callOf (l : Link) : Actor → Option Exchange
  | .reader => none
  | .probe => l.probe.exchange?
  | .caller task => (l.tasks.lookup task).bind Task.exchange?

/-- An actor stands where it stood. -/
def SamePlace (l m : Link) : Actor → Prop
  | .reader => m.reader = l.reader
  | .probe => m.probe = l.probe
  | .caller task => m.tasks.lookup task = l.tasks.lookup task ∧
      m.results.lookup task = l.results.lookup task

/-- Nothing has changed about what the actors share, nor about the others' places. -/
structure Quiet (a : Actor) (l m : Link) : Prop where
  calls : m.calls = l.calls
  fanout : m.fanout = l.fanout
  slots : m.slots = l.slots
  line : m.line = l.line
  jobStream : m.jobStream = l.jobStream
  others : ∀ b, b ≠ a → SamePlace l m b

/-- Why an actor ends the connection. -/
inductive Cause : Actor → LinkError → Prop
  /-- A read or a write has failed. -/
  | transport (a : Actor) (text : String) : Cause a (.transport text)
  | close (task : Nat) : Cause (.caller task) (.closed "client closed")
  | goodbye (text : String) : Cause .reader (goodbyeReason text)
  | reset : Cause .reader (.closed "connection reset by server")
  | silence (failure : String) : Cause .probe (.closed ("liveness probe failed: " ++ failure))

/-- One deed of an actor, and what the actor has in hand before and after. -/
inductive Deed (a : Actor) : Link × Hand → Link × Hand → Prop
  | quiet {l m : Link} {h : Hand} (hq : Quiet a l m) : Deed a (l, h) (m, h)
  | register {l : Link} {h : Hand} (kind : Call.Kind) (hc : l.calls.closed = none)
      (hh : h.call = none) :
      Deed a (l, h) (l.perform (.register kind), { h with call := some (l.calls.nextId, kind) })
  | forget {l : Link} {h : Hand} {id : Nat} {kind : Call.Kind} (hh : h.call = some (id, kind)) :
      Deed a (l, h) (l.forget id, { h with call := none })
  | teardown {l : Link} {h : Hand} (reason : LinkError) (hr : Cause a reason) :
      Deed a (l, h) (l.teardown reason, h)
  | join {l : Link} {h : Hand} (hh : h.inLine = false) :
      Deed a (l, h) (l.joinLine a, { h with inLine := true })
  | leave {l : Link} {h : Hand} : Deed a (l, h) (l.leaveLine a, { h with inLine := false })
  | subscribe {l : Link} {h : Hand} (c : String) (capacity : Nat) (hc : l.fanout.closed = false)
      (hh : h.subscription = none) :
      Deed a (l, h) (l.perform (.subscribe c capacity),
        { h with subscription := some ⟨c, l.fanout.lastKey + 1⟩ })
  | discard {l : Link} {h : Hand} {s : Subscription} (hh : h.subscription = some s) :
      Deed a (l, h) ({ l with fanout := l.fanout.discard s }, { h with subscription := none })
  /-- The caller gets the subscription. -/
  | handOver {l : Link} {h : Hand} : Deed a (l, h) (l, { h with subscription := none })
  | ask {l : Link} {h : Hand} {task : Nat} (ha : a = .caller task) (hj : l.jobStream = .unasked) :
      Deed a (l, h) ({ l with jobStream := .asking task }, { h with asks := true })
  | learn {l : Link} {h : Hand} (s : JobStream) (hh : h.asks = true) (hs : ∀ t, s ≠ .asking t) :
      Deed a (l, h) ({ l with jobStream := s }, { h with asks := false })

/-- Some deeds, one after the other. -/
def Deeds (a : Actor) : Link × Hand → Link × Hand → Prop := Relation.ReflTransGen (Deed a)

/-- What an actor does in its turn, from where it stood to where it stands then. -/
def Turn (a : Actor) (l m : Link) : Prop := Deeds a (l, l.hand a) (m, m.hand a)

variable {a b : Actor} {l m n : Link} {h h' h'' : Hand} {id : Nat}

theorem Deeds.refl {p : Link × Hand} : Deeds a p p := Relation.ReflTransGen.refl

theorem Deeds.trans {p q r : Link × Hand} (hp : Deeds a p q) (hq : Deeds a q r) : Deeds a p r :=
  Relation.ReflTransGen.trans hp hq

theorem Deed.deeds {p q : Link × Hand} (hp : Deed a p q) : Deeds a p q :=
  Relation.ReflTransGen.single hp

/-- What every deed keeps, some deeds keep. -/
theorem Deeds.keep {P : Link → Hand → Prop} (hd : Deeds a (l, h) (m, h')) (hl : P l h)
    (hstep : ∀ {l h m h'}, P l h → Deed a (l, h) (m, h') → P m h') : P m h' := by
  suffices ∀ q, Deeds a (l, h) q → P q.1 q.2 from this _ hd
  intro q hq
  induction hq with
  | refl => exact hl
  | tail _ hm ih => exact hstep ih hm

theorem call_hand (l : Link) (a : Actor) :
    (l.hand a).call = (l.callOf a).map fun x => (x.id, x.kind) := by
  cases a with
  | reader =>
    show l.reader.hand.call = none
    cases l.reader with
    | releasing stage => cases stage <;> rfl
    | _ => rfl
  | probe =>
    show l.probe.hand.call = l.probe.exchange?.map _
    cases l.probe with
    | releasing stage => cases stage <;> rfl
    | _ => rfl
  | caller task =>
    show (((l.tasks.lookup task).map Task.hand).getD {}).call = _
    rw [callOf]
    cases l.tasks.lookup task with
    | none => rfl
    | some t =>
      cases t with
      | close stage => cases stage <;> rfl
      | _ => rfl

theorem hand_eq (ha : SamePlace l m a) : m.hand a = l.hand a := by
  cases a with
  | reader => exact congrArg Reader.State.hand ha
  | probe => exact congrArg Probe.State.hand ha
  | caller task => simp only [hand, ha.1]

theorem callOf_eq (ha : SamePlace l m a) : m.callOf a = l.callOf a := by
  cases a with
  | reader => rfl
  | probe => exact congrArg Probe.State.exchange? ha
  | caller task => simp only [callOf, ha.1]

theorem SamePlace.refl (l : Link) (a : Actor) : SamePlace l l a := by
  cases a with
  | caller task => exact ⟨rfl, rfl⟩
  | _ => rfl

theorem SamePlace.trans (hl : SamePlace l m a) (hm : SamePlace m n a) : SamePlace l n a := by
  cases a with
  | caller task => exact ⟨Eq.trans hm.1 hl.1, Eq.trans hm.2 hl.2⟩
  | _ => exact Eq.trans hm hl

/-- Operations on what the actors share leave all of them where they stand. -/
theorem samePlace_perform (l : Link) (o : Op) (a : Actor) : SamePlace l (l.perform o) a := by
  rw [perform_frame]
  exact SamePlace.refl l a

/-! ## Others -/

theorem Deed.others (hd : Deed a (l, h) (m, h')) (hb : b ≠ a) : SamePlace l m b := by
  cases hd with
  | quiet hq => exact hq.others b hb
  | register kind => exact samePlace_perform l (.register kind) b
  | forget => exact samePlace_perform l (.cancel _) b
  | teardown reason => exact samePlace_perform l (.teardown reason) b
  | subscribe c capacity => exact samePlace_perform l (.subscribe c capacity) b
  | join | leave | discard | handOver | ask | learn => exact SamePlace.refl l b

theorem Deeds.others (hd : Deeds a (l, h) (m, h')) (hb : b ≠ a) : SamePlace l m b :=
  hd.keep (P := fun m _ => SamePlace l m b) (SamePlace.refl l b)
    fun ih hm => ih.trans (hm.others hb)

/-! ## Calls of others -/

theorem Unaffected.refl (l : Link) (id : Nat) : Unaffected l l id := ⟨rfl, fun _ => .rfl, rfl⟩

theorem Unaffected.trans (hl : Unaffected l m id) (hm : Unaffected m n id) : Unaffected l n id :=
  ⟨hm.pending.trans hl.pending, fun job => (hm.waiting job).trans (hl.waiting job),
    hm.slot.trans hl.slot⟩

theorem Unaffected.of_eq (hc : m.calls = l.calls) (hs : m.slots = l.slots) :
    Unaffected l m id := ⟨by rw [hc], fun job => by rw [hc], by rw [hs]⟩

theorem teardown_of_closed {reason : LinkError} (hc : l.calls.closed = some reason)
    (why : LinkError) : l.teardown why = { l with stopped := true } := by
  unfold teardown
  rw [failAll_eq, hc]
  rfl

/-- A call that is given up leaves the others as they are. -/
theorem unaffected_forget (hl : l.calls.Inv) {call : Nat} (hne : id ≠ call) :
    Unaffected l (l.forget call) id := by
  refine ⟨Table.lookup_erase_ne hne, fun job => ⟨fun hw => ?_, fun hw => ?_⟩,
    Table.lookup_erase_ne hne⟩
  · have hm : (job, id) ∈ l.calls.jobs.waiting.filter (·.2 ≠ call) := Table.mem_of_lookup hw
    exact Table.lookup_of_mem hl.jobs.once (List.mem_filter.1 hm).1
  · have hm : (job, id) ∈ l.calls.jobs.waiting.filter (·.2 ≠ call) :=
      List.mem_filter.2 ⟨Table.mem_of_lookup hw, by simpa using hne⟩
    exact Table.lookup_of_mem (hl.jobs.forget call).once hm

theorem unaffected_register (hc : l.calls.closed = none) (hid : id < l.calls.nextId)
    (kind : Call.Kind) : Unaffected l (l.perform (.register kind)) id := by
  have hs : (l.perform (.register kind)).calls = (l.calls.step (.register kind)).1 := rfl
  simp only [Calls.step, Calls.register_ok hc] at hs
  refine ⟨?_, fun job => by rw [hs], rfl⟩
  rw [hs]
  exact Table.lookup_insert_ne (Nat.ne_of_lt hid)

/-- The calls as a deed changes them: by an event of their own, if at all. -/
theorem Deed.calls (hd : Deed a (l, h) (m, h')) :
    m.calls = l.calls ∨ ∃ e, m.calls = (l.calls.step e).1 := by
  cases hd with
  | quiet hq => exact .inl hq.calls
  | register kind => exact .inr ⟨.register kind, rfl⟩
  | forget => exact .inr ⟨.cancel _, rfl⟩
  | teardown reason => exact .inr ⟨.failAll reason, calls_teardown l reason⟩
  | _ => exact .inl rfl

theorem Deed.calls_inv (hd : Deed a (l, h) (m, h')) (hl : l.calls.Inv) : m.calls.Inv := by
  rcases hd.calls with hm | ⟨e, hm⟩ <;> rw [hm]
  · exact hl
  · exact hl.step e

theorem Deed.nextId_le (hd : Deed a (l, h) (m, h')) : l.calls.nextId ≤ m.calls.nextId := by
  rcases hd.calls with hm | ⟨e, hm⟩
  · exact Nat.le_of_eq (by rw [hm])
  · rw [hm]
    exact Calls.nextId_le_step l.calls e

theorem Deed.closed {reason : LinkError} (hd : Deed a (l, h) (m, h'))
    (hc : l.calls.closed = some reason) : m.calls.closed = some reason := by
  rcases hd.calls with hm | ⟨e, hm⟩ <;> rw [hm]
  · exact hc
  · rw [Calls.closed_step]
    split
    · rw [hc]
      rfl
    · exact hc

theorem Deeds.closed {reason : LinkError} (hd : Deeds a (l, h) (m, h'))
    (hc : l.calls.closed = some reason) : m.calls.closed = some reason :=
  hd.keep hc fun ih hm => hm.closed ih

/-- Deeds that do not end the connection do not end it midway. -/
theorem Deeds.same_closed (hd : Deeds a (l, h) (m, h')) (hm : Deed a (m, h') (n, h''))
    (hc : n.calls.closed = l.calls.closed) :
    m.calls.closed = l.calls.closed ∧ n.calls.closed = m.calls.closed := by
  cases hl : l.calls.closed with
  | some reason => exact ⟨hd.closed hl, (hc.trans hl).trans (hd.closed hl).symm⟩
  | none =>
    cases hmc : m.calls.closed with
    | none => exact ⟨rfl, hc.trans hl⟩
    | some reason =>
      rw [hl, hm.closed hmc] at hc
      cases hc

/-- If some deeds do not end the connection, they keep what every deed keeps that does not. -/
theorem Deeds.keep_open {P : Link → Hand → Prop} (hd : Deeds a (l, h) (m, h'))
    (hc : m.calls.closed = l.calls.closed) (hl : P l h)
    (hstep : ∀ {l h m h'}, P l h → Deed a (l, h) (m, h') → m.calls.closed = l.calls.closed →
      P m h') : P m h' := by
  suffices ∀ q, Deeds a (l, h) q → q.1.calls.closed = l.calls.closed → P q.1 q.2 from
    this _ hd hc
  intro q hq
  induction hq with
  | refl => exact fun _ => hl
  | @tail p q hp hq ih =>
    intro hqc
    obtain ⟨hpc, hqp⟩ := Deeds.same_closed (h := h) hp hq hqc
    exact hstep (ih hpc) hq hqp

theorem teardown_of_same_closed {reason : LinkError}
    (hc : (l.teardown reason).calls.closed = l.calls.closed) :
    l.teardown reason = { l with stopped := true } := by
  rw [closed_teardown] at hc
  exact teardown_of_closed hc.symm reason

/-- A deed affects no call of another, unless it ends the connection. -/
theorem Deed.unaffected (hd : Deed a (l, h) (m, h')) (hl : l.calls.Inv)
    (hc : m.calls.closed = l.calls.closed) (hid : id < l.calls.nextId)
    (hh : ∀ kind, h.call ≠ some (id, kind)) :
    Unaffected l m id ∧ ∀ kind, h'.call ≠ some (id, kind) := by
  cases hd with
  | quiet hq => exact ⟨.of_eq hq.calls hq.slots, hh⟩
  | register kind hopen =>
    refine ⟨unaffected_register hopen hid kind, fun kind' he => ?_⟩
    exact Nat.ne_of_gt hid (Prod.mk.inj (Option.some.inj he)).1
  | forget hcall =>
    refine ⟨unaffected_forget hl fun he => ?_, fun _ => by simp⟩
    subst he
    exact hh _ hcall
  | teardown reason =>
    rw [teardown_of_same_closed hc]
    exact ⟨.of_eq rfl rfl, hh⟩
  | join | leave | subscribe | discard | handOver | ask | learn =>
    exact ⟨.of_eq rfl rfl, hh⟩

/-- **A turn leaves the calls of others alone**, unless it ends the connection. -/
theorem Deeds.unaffected (hd : Deeds a (l, h) (m, h')) (hl : l.calls.Inv)
    (hc : m.calls.closed = l.calls.closed) (hid : id < l.calls.nextId)
    (hh : ∀ kind, h.call ≠ some (id, kind)) :
    Unaffected l m id ∧ ∀ kind, h'.call ≠ some (id, kind) := by
  refine (hd.keep_open (P := fun m h => m.calls.Inv ∧ id < m.calls.nextId ∧ Unaffected l m id ∧
    ∀ kind, h.call ≠ some (id, kind)) hc ⟨hl, hid, .refl l id, hh⟩ ?_).2.2
  rintro m h n h' ⟨hm, hlt, hun, hno⟩ hd hc
  obtain ⟨hun', hno'⟩ := hd.unaffected hm hc hlt hno
  exact ⟨hd.calls_inv hm, Nat.lt_of_lt_of_le hlt hd.nextId_le, hun.trans hun', hno'⟩

end Link

end ServerLink
