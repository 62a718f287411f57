import ServerLink.Proofs.Link.Answers
import ServerLink.Proofs.Link.Ownership

/-!
# What is left of a call

However a call ends, and also when it is given up, nothing is left of it, now or later: it is in no
table, and an answer with its id is dropped (`Gone`). To end it affects no other call, unless the
whole connection ends (`finished_calls_leave_nothing`).
-/

namespace ServerLink.Link

/-- Nothing is left of a call. -/
structure Gone (l : Link) (id : Nat) : Prop where
  ended : ¬ l.calls.Outstanding id
  slot : l.slots.lookup id = none
  unmatched : ∀ r : Response, r.id = id → l.calls.answer r = none
  dropped : ∀ text r, Frame.ofText text = .ok (.answer r) → r.id = id → l.dispatch text = l

variable {l m : Link} {a b : Actor} {x : Exchange} {h h' : Hand} {id : Nat}

/-! ## Calls in nobody's hand -/

theorem gone_of_not_known (hk : ¬ l.Known id) : l.Gone id := by
  have hended : ¬ l.calls.Outstanding id := fun ho => hk (.inl ho)
  have hunmatched : ∀ r : Response, r.id = id → l.calls.answer r = none := by
    rintro r rfl
    have hp : l.calls.pending.lookup r.id = none :=
      Table.lookup_eq_none.2 fun hm => hended (.inl hm)
    rw [Calls.answer, hp]
    rfl
  refine ⟨hended, ?_, hunmatched, fun text r ht hr => ?_⟩
  · cases hs : l.slots.lookup id with
    | none => rfl
    | some how => exact absurd (.inr (by rw [hs]; rfl)) hk
  · simp only [dispatch, ht, hunmatched r hr]

theorem callOf_of_call {kind : Call.Kind} (hc : (l.hand a).call = some (id, kind)) :
    ∃ x, l.callOf a = some x ∧ x.id = id ∧ x.kind = kind := by
  rw [call_hand] at hc
  obtain ⟨x, hx, he⟩ := Option.map_eq_some_iff.1 hc
  cases he
  exact ⟨x, hx, rfl, rfl⟩

theorem call_of_callOf (hx : l.callOf a = some x) : (l.hand a).call = some (x.id, x.kind) := by
  rw [call_hand, hx]
  rfl

theorem Tidy.known_of_callOf (hl : l.Tidy) (hx : l.callOf a = some x) : l.Known x.id :=
  (hl.owned.known x.id).2 ⟨a, x.kind, call_of_callOf hx⟩

theorem Tidy.not_known (hl : l.Tidy) (hno : ∀ a x, l.callOf a = some x → x.id ≠ id) :
    ¬ l.Known id := by
  intro hk
  obtain ⟨a, kind, ha⟩ := (hl.owned.known id).1 hk
  obtain ⟨x, hx, hid, -⟩ := callOf_of_call ha
  exact hno a x hx hid

/-- Whoever makes a call has it in hand, and maybe something besides. -/
theorem hand_of_callOf (hx : l.callOf a = some x) : ∃ h : Hand, l.hand a = h.making x := by
  cases a with
  | reader => cases hx
  | probe =>
    cases hp : l.probe with
    | asking y =>
      simp only [callOf, hp, Probe.State.exchange?, Option.some.injEq] at hx
      subst hx
      exact ⟨{}, by simp only [hand, hp]; rfl⟩
    | _ => simp [callOf, hp, Probe.State.exchange?] at hx
  | caller task =>
    obtain ⟨t, ht, hx⟩ := Option.bind_eq_some_iff.1 hx
    rw [hand_of_lookup ht]
    cases t <;> cases hx <;> exact ⟨_, rfl⟩

/-! ## Calls that are forgotten -/

/-- Nobody comes to know a call again. -/
theorem Deed.known (hd : Deed a (l, h) (m, h')) (hl : l.calls.Inv) (hid : id < l.calls.nextId)
    (hk : m.Known id) : l.Known id := by
  cases hd with
  | quiet hq => rwa [Known, hq.calls, hq.slots] at hk
  | register kind =>
    exact (known_perform hl (by simp) fun _ _ => Nat.ne_of_lt hid).1 hk
  | @forget _ _ call _ hh =>
    by_cases hc : id = call
    · subst hc
      exact absurd hk (not_known_forget l id)
    · refine (known_perform (o := .cancel call) hl ?_ (by simp)).1 hk
      simpa using Ne.symm hc
  | teardown reason =>
    exact (known_perform (o := .teardown reason) hl (by simp) (by simp)).1 hk
  | join | leave | subscribe | discard | handOver | ask | learn => exact hk

theorem Deeds.known (hd : Deeds a (l, h) (m, h')) (hl : l.calls.Inv) (hid : id < l.calls.nextId)
    (hk : m.Known id) : l.Known id := by
  refine (hd.keep (P := fun m _ => m.calls.Inv ∧ id < m.calls.nextId ∧ (m.Known id → l.Known id))
    ⟨hl, hid, fun hk => hk⟩ ?_).2.2 hk
  rintro m h n h' ⟨hm, hlt, ih⟩ hd
  exact ⟨hd.calls_inv hm, Nat.lt_of_lt_of_le hlt hd.nextId_le, fun hk => ih (hd.known hm hlt hk)⟩

theorem known_brings (hl : l.calls.Inv) {e : Event} {o : Op} (ho : Brings l e o) :
    (l.perform o).Known id ↔ l.Known id := by
  refine known_perform hl ?_ fun kind he => ?_
  · rintro rfl
    cases ho with
    | frame _ _ ho => cases Op.isInbound_of_text ho
  · subst he
    cases ho with
    | frame _ _ ho => cases Op.isInbound_of_text ho

theorem nextId_event (l : Link) (e : Event) : l.calls.nextId ≤ (l.step e).calls.nextId := by
  cases ha : e.actor? with
  | some a =>
    exact Deeds.keep (P := fun m _ => l.calls.nextId ≤ m.calls.nextId) (step_turn ha)
      (Nat.le_refl _) fun ih hm => Nat.le_trans ih hm.nextId_le
  | none =>
    rcases step_shared (l := l) ha with ⟨o, -, hs⟩ | ⟨fired, hs⟩
    · rw [hs, calls_perform]
      split
      · exact Calls.nextId_le_step l.calls _
      · exact Nat.le_refl _
    · exact Nat.le_of_eq (by rw [hs])

theorem known_event (hl : l.calls.Inv) (hid : id < l.calls.nextId) {e : Event}
    (hk : (l.step e).Known id) : l.Known id := by
  cases ha : e.actor? with
  | some a => exact Deeds.known (step_turn ha) hl hid hk
  | none =>
    rcases step_shared (l := l) ha with ⟨o, ho, hs⟩ | ⟨fired, hs⟩ <;> rw [hs] at hk
    · exact (known_brings hl ho).1 hk
    · exact hk

theorem known_run (hl : l.Tidy) (hid : id < l.calls.nextId) {events : List Event}
    (hk : (l.run events).Known id) : l.Known id := by
  induction events generalizing l with
  | nil => exact hk
  | cons e events ih =>
    have hlt := Nat.lt_of_lt_of_le hid (nextId_event l e)
    exact known_event hl.owned.calls hid (ih (hl.event e) hlt hk)

/-! ## A call that ends -/

section
variable (hl : l.Tidy) (hx : l.callOf a = some x)
include hl hx

/-- When its actor has done with a call, nobody knows it. -/
theorem Tidy.not_known_of_done {h : Hand} (hd : Deeds a (l, l.hand a) (m, h))
    (hh : h.call = none) : ¬ m.Known x.id := by
  intro hk
  obtain ⟨b, kind, hb⟩ := ((Kept.deeds hl hd).owned.known x.id).1 hk
  by_cases hba : b = a
  · rw [hba, Function.update_self, hh] at hb
    cases hb
  · rw [Function.update_of_ne hba] at hb
    exact hba (hl.owned.once b a x.id kind x.kind hb (call_of_callOf hx))

theorem Tidy.gone_of_resume {c : Cancellation} {w : Wakeup} {o : Outcome}
    (hr : l.resume a x c w = (m, .over o)) : m.Gone x.id := by
  obtain ⟨h, hh⟩ := hand_of_callOf hx
  have hd := resume_deeds (a := a) (l := l) (x := x) (h := h) c w
  rw [hr, ← hh] at hd
  exact gone_of_not_known (hl.not_known_of_done hx hd rfl)

theorem Tidy.gone_of_abandon : (l.abandon a x).Gone x.id := by
  obtain ⟨h, hh⟩ := hand_of_callOf hx
  have hd := abandon_deeds (a := a) (l := l) (x := x) (h := h)
  rw [← hh] at hd
  exact gone_of_not_known (hl.not_known_of_done hx hd rfl)

theorem Tidy.unaffected_resume (hid : id < l.calls.nextId) (hne : id ≠ x.id) {c : Cancellation}
    {w : Wakeup} {p : Exchange.Progress} (hr : l.resume a x c w = (m, p))
    (hc : m.calls.closed = l.calls.closed) : Unaffected l m id := by
  obtain ⟨h, hh⟩ := hand_of_callOf hx
  have hd := resume_deeds (a := a) (l := l) (x := x) (h := h) c w
  rw [hr] at hd
  refine (Deeds.unaffected hd hl.owned.calls hc hid fun kind he => ?_).1
  cases he
  exact hne rfl

omit hx in
theorem Tidy.unaffected_abandon (hne : id ≠ x.id) : Unaffected l (l.abandon a x) id :=
  (Unaffected.of_eq (l := l) (m := l.leaveLine a) rfl rfl).trans
    (unaffected_forget (l := l.leaveLine a) hl.owned.calls hne)

end

/-! ## A call whose end comes from the server -/

/-- Deeds bring no end of a call about, unless they end the connection. -/
theorem Deed.slots (hd : Deed a (l, h) (m, h')) (hc : m.calls.closed = l.calls.closed)
    {how : Slot.End} (hs : m.slots.lookup id = some how) : l.slots.lookup id = some how := by
  cases hd with
  | quiet hq => rwa [hq.slots] at hs
  | @forget _ _ call _ hh =>
    by_cases hcall : id = call
    · rw [hcall, show (l.forget call).slots.lookup call = none from Table.lookup_erase_self] at hs
      cases hs
    · exact (Table.lookup_erase_ne hcall).symm.trans hs
  | teardown reason =>
    rwa [teardown_of_same_closed hc] at hs
  | register | join | leave | subscribe | discard | handOver | ask | learn => exact hs

theorem Deeds.slots (hd : Deeds a (l, h) (m, h')) (hc : m.calls.closed = l.calls.closed)
    {how : Slot.End} (hs : m.slots.lookup id = some how) : l.slots.lookup id = some how :=
  hd.keep_open (P := fun m _ => m.slots.lookup id = some how → l.slots.lookup id = some how) hc
    (fun hs => hs) (fun ih hm hc hs => ih (hm.slots hc hs)) hs

/-- An answer that ends its call displaces no other. -/
theorem not_displaces_of_filled (hl : l.calls.Inv) {r : Response} {call : Nat} {o : Outcome}
    (hf : .filled o ∈ endsOf call (l.calls.step (.answer r)).2) (id : Nat) :
    call = r.id ∧ ¬ l.calls.Displaces (.answer r) id := by
  rcases Calls.step_answer l.calls r with ⟨-, hs⟩ | ⟨kind, -, hno, hs⟩ | ⟨job, hst, hs⟩ <;>
    rw [hs] at hf
  · cases hf
  · rw [endsOf_filled] at hf
    refine ⟨?_, fun ⟨r', job, he, hst, _⟩ => ?_⟩
    · split at hf
      · rename_i he
        exact he.symm
      · cases hf
    · cases he
      exact hno job hst
  · rcases Job.Watch.attach_cases l.calls.jobs job r.id with ⟨e, he, ha⟩ | ⟨-, ha⟩ <;>
      rw [ha] at hf
    · rw [endsOf_filled] at hf
      refine ⟨?_, fun ⟨r', job', heq, hst', hw⟩ => ?_⟩
      · split at hf
        · rename_i he
          exact he.symm
        · cases hf
      · cases heq
        obtain rfl := hst.unique hst'
        -- a job that a call waits for has no report that is kept
        have hnone := hl.jobs.early e (List.mem_of_find?_eq_some he)
        rw [show e.id = job by simpa using List.find?_some he, hw] at hnone
        cases hnone
    · cases hw : l.calls.jobs.waiting.lookup job with
      | none => simp [hw] at hf
      | some old =>
        rw [hw, Option.map_some, Option.toList_some, endsOf_abandoned] at hf
        split at hf
        · simp at hf
        · cases hf

/-- A report affects no call but the one that waits for its job. -/
theorem unaffected_report (l : Link) {r : Job.Report} {call : Nat} {o : Outcome}
    (hf : .filled o ∈ endsOf call (l.calls.step (.report r)).2) (hne : id ≠ call) :
    Unaffected l (l.perform (.report r)) id := by
  have hslots := slots_perform l (.report r) id
  rw [if_neg (by simp)] at hslots
  have hcalls : (l.perform (.report r)).calls = (l.calls.step (.report r)).1 := rfl
  rcases Calls.step_report l.calls r with ⟨-, hs⟩ | ⟨-, call', hw, hs⟩ | ⟨-, -, hs⟩ <;>
    rw [hs] at hf
  · cases hf
  · obtain rfl : call' = call := by
      rw [endsOf_filled] at hf
      split at hf
      · assumption
      · cases hf
    refine ⟨by rw [hcalls, hs], fun job => ?_, ?_⟩
    · rw [hcalls, hs]
      show (Table.erase l.calls.jobs.waiting r.id).lookup job = some id ↔ _
      by_cases hj : job = r.id
      · subst hj
        rw [Table.lookup_erase_self, hw]
        simp [Ne.symm hne]
      · rw [Table.lookup_erase_ne hj]
    · rw [hslots]
      show ((endsOf id (l.calls.step (.report r)).2).getLast?).or _ = _
      rw [hs, endsOf_filled, if_neg (Ne.symm hne)]
      rfl
  · cases hf

/-- **What ends a call affects no other**, unless it ends the connection. -/
theorem Tidy.unaffected_of_filled (hl : l.Tidy) {e : Event} {call : Nat} {o : Outcome}
    (hc : (l.step e).calls.closed = l.calls.closed) (hnone : l.slots.lookup call = none)
    (hf : (l.step e).slots.lookup call = some (.filled o)) (hne : id ≠ call) :
    Unaffected l (l.step e) id := by
  have hnew : l.slots.lookup call ≠ some (.filled o) := by simp [hnone]
  cases ha : e.actor? with
  | some a => exact absurd (Deeds.slots (step_turn ha) hc hf) hnew
  | none =>
    rcases step_shared (l := l) ha with ⟨op, ho, hs⟩ | ⟨fired, hs⟩ <;> rw [hs] at hf hc ⊢
    · have hends : .filled o ∈ endsOf call (l.ends op) := by
        rw [slots_perform] at hf
        split at hf
        · cases hf
        · rcases Option.or_eq_some_iff.1 hf with hf | ⟨-, hf⟩
          · exact List.mem_of_getLast? hf
          · exact absurd hf hnew
      cases op with
      | answer r =>
        obtain ⟨rfl, hd⟩ := not_displaces_of_filled hl.owned.calls hends id
        exact unaffected_answer l hne hd
      | report r => exact unaffected_report l hends hne
      | teardown reason =>
        have hsame : l.perform (.teardown reason) = { l with stopped := true } :=
          teardown_of_same_closed hc
        rw [hsame]
        exact .of_eq rfl rfl
      | _ => cases hends
    · exact absurd hf hnew

/-! ## A call that does not begin -/

theorem begin_of_closed (m : Link) {reason : LinkError} (hc : m.calls.closed = some reason)
    (a : Actor) (method : String) (params : Json) (kind : Call.Kind) :
    m.begin a method params kind = (m, .over (.error reason)) := by
  simp only [begin, Calls.register_error hc]

/-- A request that is too large leaves no trace but its number. -/
theorem begin_of_tooLarge (hl : m.calls.Inv) (hs : m.slots.lookup m.calls.nextId = none)
    (hc : m.calls.closed = none) (a : Actor) {method : String} {params : Json} {e : FrameError}
    (hf : Request.frame { id := m.calls.nextId, method, params } = .error e) (kind : Call.Kind) :
    m.begin a method params kind =
      ({ m with calls := { m.calls with nextId := m.calls.nextId + 1 } },
        .over (.error (.ofFrameError e))) := by
  have hfresh : ∀ id ∈ m.calls.held, id ≠ m.calls.nextId := fun id hid =>
    Nat.ne_of_lt (hl.below id hid)
  have hpending : Table.erase (Table.insert m.calls.pending m.calls.nextId kind)
      m.calls.nextId = m.calls.pending := by
    have hn : m.calls.nextId ∉ Table.keys m.calls.pending := fun hm =>
      hfresh _ (List.mem_append_left _ hm) rfl
    rw [Table.insert, Table.erase_of_not_mem hn, Table.erase, List.filter_append]
    have : Table.erase m.calls.pending m.calls.nextId = m.calls.pending :=
      Table.erase_of_not_mem hn
    rw [Table.erase] at this
    rw [this]
    simp
  have hwaiting : m.calls.jobs.waiting.filter (·.2 ≠ m.calls.nextId) = m.calls.jobs.waiting := by
    refine List.filter_eq_self.2 fun e he => ?_
    have := hfresh e.2 (List.mem_append_right _ (List.mem_map.2 ⟨e, he, rfl⟩))
    simpa using this
  have hslots : Table.erase m.slots m.calls.nextId = m.slots :=
    Table.erase_of_not_mem (Table.lookup_eq_none.1 hs)
  simp only [begin, Calls.register_ok hc, hf, forget, Calls.cancel, Job.Watch.forget, hpending,
    hwaiting, hslots]

/-- **A finished call leaves nothing behind.** A call that begins on a connection that has ended
fails at once with its reason, and one whose request would be too large with an error of its own;
neither is written, and the tables stay as they are. Whenever a call that is under way is over or
given up, nothing is left of it, and no other call is affected unless the connection ends. A call
that nobody is making is gone, and stays so. The turn of an actor affects no call of another, and
what fills one slot affects no other call, unless the connection ends. -/
theorem finished_calls_leave_nothing (hl : l.Reachable) :
    (∀ m : Link, m.calls = l.calls → m.slots = l.slots → ∀ a method params kind,
      (∀ reason, l.calls.closed = some reason →
        m.begin a method params kind = (m, .over (.error reason))) ∧
      (l.calls.closed = none → ∀ size,
        (Request.toJson { id := l.calls.nextId, method, params }).render.utf8ByteSize = size →
        maxFrameSize < size →
        m.begin a method params kind =
          ({ m with calls := { m.calls with nextId := m.calls.nextId + 1 } },
            .over (.error (.protocol (FrameError.tooLarge size maxFrameSize).message))))) ∧
    (∀ a x, l.callOf a = some x →
      (l.abandon a x).Gone x.id ∧
      (∀ c w m o, l.resume a x c w = (m, .over o) → m.Gone x.id) ∧
      ∀ id < l.calls.nextId, id ≠ x.id → Unaffected l (l.abandon a x) id ∧
        ∀ c w m p, l.resume a x c w = (m, p) → m.calls.closed = l.calls.closed →
          Unaffected l m id) ∧
    (∀ id < l.calls.nextId, (∀ a x, l.callOf a = some x → x.id ≠ id) →
      ∀ later, (l.run later).Gone id) ∧
    ∀ e, (l.step e).calls.closed = l.calls.closed → ∀ id < l.calls.nextId,
      (∀ a, e.actor? = some a → (∀ x, l.callOf a = some x → x.id ≠ id) →
        Unaffected l (l.step e) id) ∧
      ∀ call o, l.slots.lookup call = none → (l.step e).slots.lookup call = some (.filled o) →
        id ≠ call → Unaffected l (l.step e) id := by
  have ht := hl.tidy
  refine ⟨fun m hc hs a method params kind => ⟨fun reason hr => ?_, ?_⟩, fun a x hx => ?_,
    fun id hid hno later => ?_, fun e hc id hid => ⟨fun a ha hno => ?_, ?_⟩⟩
  · exact begin_of_closed m (by rw [hc, hr]) a method params kind
  · rintro hopen size rfl hlarge
    have hslot : m.slots.lookup m.calls.nextId = none := by
      rw [hc, hs]
      cases hn : l.slots.lookup l.calls.nextId with
      | none => rfl
      | some how =>
        have := ht.owned.admitted l.calls.nextId (.inr (by rw [hn]; rfl))
        exact absurd this (Nat.lt_irrefl _)
    refine begin_of_tooLarge (hc ▸ ht.owned.calls) hslot (hc ▸ hopen) a ?_ kind
    rw [hc, Request.frame]
    exact if_pos hlarge
  · exact ⟨ht.gone_of_abandon hx, fun c w m o hr => ht.gone_of_resume hx hr,
      fun id hid hne => ⟨ht.unaffected_abandon hne,
        fun c w m p hr hc => ht.unaffected_resume hx hid hne hr hc⟩⟩
  · exact gone_of_not_known fun hk => ht.not_known hno (known_run ht hid hk)
  · refine (Deeds.unaffected (step_turn ha) ht.owned.calls hc hid fun kind he => ?_).1
    obtain ⟨x, hx, hxid, -⟩ := callOf_of_call he
    exact hno x hx hxid
  · exact fun call o hnone hf hne => ht.unaffected_of_filled hc hnone hf hne

/-- A call that is given up while it waits for its answer. -/
theorem nothing_left_of_dropped_call : ((ofSettings {}).run asking).Reachable ∧
    ∀ later, (((ofSettings {}).run (asking ++ [.drop 1])).run later).Gone 1 := by
  have hr : ((ofSettings {}).run (asking ++ [.drop 1])).Reachable := ⟨{}, _, rfl⟩
  obtain ⟨l, hl, hrun⟩ : ∃ l, l = (ofSettings {}).run (asking ++ [.drop 1]) ∧
      (l.calls.nextId, l.probe, l.tasks) = (2, .off, []) := ⟨_, rfl, by cbv⟩
  simp only [Prod.mk.injEq] at hrun
  obtain ⟨hnext, hprobe, htasks⟩ := hrun
  rw [← hl] at hr ⊢
  refine ⟨⟨{}, asking, rfl⟩,
    (finished_calls_leave_nothing hr).2.2.1 1 (by rw [hnext]; decide) fun a x hx => ?_⟩
  cases a with
  | reader => cases hx
  | probe => simp [callOf, hprobe, Probe.State.exchange?] at hx
  | caller task => simp [callOf, htasks] at hx

end ServerLink.Link
