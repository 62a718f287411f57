import ServerLink.Proofs.Link.Resuming
import ServerLink.Proofs.Link.Teardown

/-!
# Calls caught by the end of the connection

A call that has no answer when the connection ends gets the reason of the end, wherever it stands,
as soon as it looks (`caught_calls_report_one_cause`). But one that is writing does not look if its
own write fails as well: it reports that failure (`failed_write_hides_the_cause`).
-/

namespace ServerLink.Link

/-- What a call that goes on finds by itself: that its write has failed, or that it is cancelled,
if it sees that first. -/
def ownFailure? (x : Exchange) (c : Cancellation) (w : Wakeup) : Option LinkError :=
  match x.stage, w with
  | .queued, _ => none
  | .writing, .writeFailed reason => some (.transport ("write failed: " ++ reason))
  | .writing, .writeTimedOut => some (.transport "write timed out")
  | .writing, .nothing | .writing, .late => none
  | .writing, .written | .waiting, _ => if c = .seenFirst then some .cancelled else none

variable {l m : Link} {a : Actor} {x y : Exchange} {h h' : Hand} {id : Nat}
  {reason why : LinkError} {how : Slot.End} {c : Cancellation} {w : Wakeup} {o : Outcome}

/-! ## What the end of the connection puts into a slot -/

theorem slot_of_teardown (hs : (l.teardown why).slots.lookup id = some how) :
    l.slots.lookup id = some how ∨
      ∃ reason, (l.teardown why).calls.closed = some reason ∧ how = .filled (.error reason) := by
  cases hc : l.calls.closed with
  | some reason =>
    rw [teardown_of_closed hc] at hs
    exact .inl hs
  | none =>
    have hclosed := closed_teardown l why
    rw [hc] at hclosed
    have hslot : (l.perform (.teardown why)).slots.lookup id = some how := hs
    rw [slots_perform, if_neg (by simp)] at hslot
    rcases Option.or_eq_some_iff.1 hslot with hnew | ⟨-, hold⟩
    · have hmem := List.mem_of_getLast? hnew
      rw [ends, Calls.step_failAll hc, Calls.endsOf_filled_all] at hmem
      exact .inr ⟨why, hclosed, List.eq_of_mem_replicate hmem⟩
    · exact .inl hold

/-- Of all deeds only the end of the connection fills a slot, with its reason. -/
theorem Deed.slot_of_end (hd : Deed a (l, h) (m, h')) (hs : m.slots.lookup id = some how) :
    l.slots.lookup id = some how ∨
      ∃ reason, m.calls.closed = some reason ∧ how = .filled (.error reason) := by
  cases hd with
  | teardown why => exact slot_of_teardown hs
  | quiet hq =>
    rw [hq.slots] at hs
    exact .inl hs
  | forget hh => exact .inl ((Deed.forget (a := a) hh).slots rfl hs)
  | register | join | leave | subscribe | discard | handOver | ask | learn => exact .inl hs

theorem Deeds.slot_of_end (hd : Deeds a (l, h) (m, h')) (hs : m.slots.lookup id = some how) :
    l.slots.lookup id = some how ∨
      ∃ reason, m.calls.closed = some reason ∧ how = .filled (.error reason) := by
  revert hs
  refine hd.keep (P := fun m _ => m.slots.lookup id = some how → l.slots.lookup id = some how ∨
    ∃ reason, m.calls.closed = some reason ∧ how = .filled (.error reason)) .inl ?_
  intro m h n h' ih hd hs
  rcases hd.slot_of_end hs with hold | hnew
  · refine (ih hold).imp_right ?_
    rintro ⟨reason, hc, hhow⟩
    exact ⟨reason, hd.closed hc, hhow⟩
  · exact .inr hnew

/-- The event that ends the connection fills the slots that it fills with the reason. -/
theorem slot_of_ending {e : Event} (hopen : l.calls.closed = none)
    (hend : (l.step e).calls.closed = some reason) (hnone : l.slots.lookup id = none)
    (hs : (l.step e).slots.lookup id = some how) : how = .filled (.error reason) := by
  have hfound : (l.slots.lookup id = some how ∨
      ∃ reason, (l.step e).calls.closed = some reason ∧ how = .filled (.error reason)) →
      how = .filled (.error reason) := by
    rintro (hold | ⟨reason', hc, hhow⟩)
    · rw [hnone] at hold
      cases hold
    · rw [hend] at hc
      cases hc
      exact hhow
  cases ha : e.actor? with
  | some a => exact hfound (Deeds.slot_of_end (step_turn ha) hs)
  | none =>
    rcases step_shared (l := l) ha with ⟨op, ho, hstep⟩ | ⟨fired, hstep⟩
    · cases ho with
      | teardown why => exact hfound (slot_of_teardown hs)
      | act s act =>
        rw [hstep, closed_perform, hopen] at hend
        cases hend
      | frame _ _ ho =>
        rw [hstep, closed_of_text ho, hopen] at hend
        cases hend
    · rw [hstep, hopen] at hend
      cases hend

theorem go_inl (l : Link) (events : List Event) : l.go (events.map .inl) = l.run events := by
  induction events generalizing l with
  | nil => rfl
  | cons e events ih => exact ih (l.step e)

/-- A call that has no answer when the connection ends has the reason in its slot from then on, for
as long as it is in hand. -/
theorem caught_slot (hi : l.Inv) (hl : l.Tidy) {e : Event} (hopen : l.calls.closed = none)
    (hend : (l.step e).calls.closed = some reason) (hnone : l.slots.lookup x.id = none)
    (later : List Event) (hy : ((l.step e).run later).callOf a = some y) (hid : y.id = x.id) :
    ((l.step e).run later).slots.lookup y.id = some (.filled (.error reason)) := by
  have hi' := hi.event e
  obtain ⟨how, hs⟩ := ((hl.event e).run later).slot_of_closed (closed_run hi' hend later) hy
  have hs' : (l.step e).slots.lookup y.id = some how := by
    rw [← go_inl] at hs
    exact slots_go_over hi' hend hs
  rw [hs, slot_of_ending hopen hend (hid ▸ hnone) hs']

/-! ## What a call reports -/

/-- A call with the reason in its slot reports the reason, or what it finds by itself. -/
theorem outcome_of_caught (hc : l.calls.closed = some reason)
    (hs : l.slots.lookup x.id = some (.filled (.error reason)))
    (hr : l.resume a x c w = (m, .over o)) :
    o = .error ((ownFailure? x c w).getD reason) := by
  have hawait : ∀ {l : Link} {y : Exchange} {w : Wakeup},
      l.slots.lookup y.id = some (.filled (.error reason)) → l.await y c w = (m, .over o) →
      o = .error ((if c = .seenFirst then some LinkError.cancelled else none).getD reason) := by
    intro l y w hs hr
    unfold await at hr
    by_cases hfirst : c = .seenFirst
    · rw [if_pos hfirst] at hr
      cases hr
      rw [if_pos hfirst]
      rfl
    · rw [if_neg hfirst] at hr
      simp only [endOf?, hs, Option.map_some] at hr
      cases hr
      rw [if_neg hfirst]
      rfl
  unfold resume at hr
  cases hx : x.stage with
  | queued =>
    simp only [hx, enter] at hr
    split at hr
    · split at hr
      · cases hr
      · cases hr
        simp only [ownFailure?, hx, closedError, hc]
        rfl
    · cases hr
  | writing =>
    simp only [hx] at hr
    cases w with
    | written =>
      simp only [ownFailure?, hx]
      exact hawait (l := l.leaveLine a) (y := { x with stage := .waiting }) hs hr
    | writeFailed reason =>
      cases hr
      simp only [ownFailure?, hx]
      rfl
    | writeTimedOut =>
      cases hr
      simp only [ownFailure?, hx]
      rfl
    | nothing | late => cases hr
  | waiting =>
    simp only [hx] at hr
    simp only [ownFailure?, hx]
    exact hawait hs hr

theorem closed_await (l : Link) (x : Exchange) (c : Cancellation) (w : Wakeup) :
    (l.await x c w).1.calls.closed = l.calls.closed := by
  unfold await
  repeat' split
  all_goals rfl

/-- A call that ends the connection reports why. -/
theorem outcome_of_cause (hopen : l.calls.closed = none)
    (hr : l.resume a x c w = (m, .over o)) (hm : m.calls.closed = some why) : o = .error why := by
  have hsame : m.calls.closed ≠ l.calls.closed := by
    rw [hm, hopen]
    simp
  have hfail : ∀ text, l.failWrite a x text = (m, .over o) → o = .error why := by
    intro text hf
    cases hf
    have hclosed := closed_teardown (l.leaveLine a) (.transport text)
    rw [show (l.leaveLine a).calls.closed = none from hopen] at hclosed
    cases hclosed.symm.trans hm
    rfl
  unfold resume at hr
  split at hr
  · unfold enter at hr
    split at hr
    · split at hr
      · cases hr
      · cases hr
        exact absurd rfl hsame
    · cases hr
  · split at hr
    · have hkept := closed_await (l.leaveLine a) { x with stage := .waiting } c .nothing
      rw [hr] at hkept
      exact absurd hkept hsame
    · exact hfail _ hr
    · exact hfail _ hr
    · cases hr
    · cases hr
  · have hkept := closed_await l x c w
    rw [hr] at hkept
    exact absurd hkept hsame

/-- **Everybody caught reports one cause.** A call that is in hand and has no answer when an event
ends the connection: if it ended the connection itself, it reports the reason, which is that its
write failed. If it was not its turn, it is still in hand. As long as it is, the reason of the end
is the same, and the call reports that reason whenever it is over, unless its own write fails or it
is cancelled before it looks. And if everybody goes on and all writes succeed, it comes to report
the reason. -/
theorem caught_calls_report_one_cause (hl : l.Reachable) (hopen : l.calls.closed = none)
    {e : Event} (hend : (l.step e).calls.closed = some reason) (hx : l.callOf a = some x)
    (hnone : l.slots.lookup x.id = none) :
    l.calls.Outstanding x.id ∧
    (∀ c w m o why, l.resume a x c w = (m, .over o) → m.calls.closed = some why →
      o = .error why) ∧
    (e.actor? ≠ some a → (l.step e).callOf a = some x) ∧
    ∀ later y, ((l.step e).run later).callOf a = some y → y.id = x.id →
      ((l.step e).run later).calls.closed = some reason ∧
      (∀ c w m o, ((l.step e).run later).resume a y c w = (m, .over o) →
        o = .error ((ownFailure? y c w).getD reason)) ∧
      ∃ events z, Patient events ∧ ((l.step e).run (later ++ events)).callOf a = some z ∧
        z.id = x.id ∧ ∀ c, c ≠ .seenFirst → ∃ m,
          ((l.step e).run (later ++ events)).resume a z c .written = (m, .over (.error reason)) := by
  have hi := hl.inv
  have ht := hl.tidy
  refine ⟨?_, fun c w m o why hr hm => outcome_of_cause hopen hr hm, fun ha => ?_, ?_⟩
  · rcases ht.known_of_callOf hx with ho | hs
    · exact ho
    · rw [hnone] at hs
      cases hs
  · exact (callOf_eq (step_others ha)).trans hx
  · intro later y hy hid
    have hi' := (hi.event e).run later
    have ht' := (ht.event e).run later
    have hclosed := closed_run (hi.event e) hend later
    refine ⟨hclosed, fun c w m o hr => ?_, ?_⟩
    · exact outcome_of_caught hclosed (caught_slot hi ht hopen hend hnone later hy hid) hr
    · obtain ⟨events, z, hpatient, hz, hzid, -, hover⟩ := call_comes_to_end hi' ht' hclosed hy
      rw [← run_append] at hz hover
      refine ⟨events, z, hpatient, hz, hzid.trans hid, fun c hfirst => ?_⟩
      obtain ⟨m, o, hr⟩ := hover c
      refine ⟨m, ?_⟩
      have hclosed' := closed_run (hi.event e) hend (later ++ events)
      have ho := outcome_of_caught hclosed'
        (caught_slot hi ht hopen hend hnone (later ++ events) hz (hzid.trans hid)) hr
      have hno : ownFailure? z c .written = none := by
        unfold ownFailure?
        cases z.stage <;> simp [hfirst]
      rw [hno] at ho
      rw [hr, ho]
      rfl

/-! ## A write that fails after the end -/

/-- A caller closes the connection while the request of another is being written, which takes too
long. -/
def lateWrite : List Event := asking ++ [.start 2 .close, .resume 1 .writeTimedOut false]

/-- The call that is being written, and the end of the connection. -/
theorem writing_at_close : ∃ (l : Link) (x : Exchange), l = (ofSettings {}).run asking ∧
    l.calls.closed = none ∧
    (l.step (.start 2 .close)).calls.closed = some (.closed "client closed") ∧
    l.callOf (.caller 1) = some x ∧ l.slots.lookup x.id = none ∧ x.stage = .writing := by
  obtain ⟨l, hl, hasking⟩ : ∃ l, l = (ofSettings {}).run asking ∧
      (l.calls.closed, l.slots, (l.callOf (.caller 1)).map fun x => (x.id, x.stage)) =
        (none, [], some (1, .writing)) := ⟨_, rfl, by cbv⟩
  simp only [Prod.mk.injEq] at hasking
  obtain ⟨hopen, hslots, hcall⟩ := hasking
  obtain ⟨x, hx, hstage⟩ := Option.map_eq_some_iff.1 hcall
  refine ⟨l, x, hl, hopen, ?_, hx, by rw [hslots]; rfl, (Prod.mk.inj hstage).2⟩
  rw [hl]
  cbv

/-- The writing call reports that its write timed out, not that the client closed. -/
theorem failed_write_hides_the_cause :
    ((ofSettings {}).run lateWrite).calls.closed = some (.closed "client closed") ∧
    ((ofSettings {}).run lateWrite).results.lookup 1 =
      some (.error (.transport "write timed out")) ∧
    ¬ ∀ l : Link, l.Reachable → l.calls.closed = none → ∀ e reason,
      (l.step e).calls.closed = some reason → ∀ a x, l.callOf a = some x →
      l.slots.lookup x.id = none → ∀ later y, ((l.step e).run later).callOf a = some y →
      y.id = x.id → ∀ w m o, ((l.step e).run later).resume a y .no w = (m, .over o) →
      o = .error reason := by
  refine ⟨by cbv, by cbv, fun hall => ?_⟩
  obtain ⟨l, x, hl, hopen, hend, hx, hnone, hstage⟩ := writing_at_close
  have hy : (l.step (.start 2 .close)).callOf (.caller 1) = some x :=
    (callOf_eq (Deeds.others (step_turn rfl) (by simp))).trans hx
  obtain ⟨m, hresume⟩ : ∃ m, (l.step (.start 2 .close)).resume (.caller 1) x .no .writeTimedOut =
      (m, .over (.error (.transport "write timed out"))) := by
    simp only [resume, hstage, failWrite]
    exact ⟨_, rfl⟩
  have hwrong := hall l ⟨{}, asking, hl⟩ hopen _ _ hend _ x hx hnone [] x hy rfl _ _ _ hresume
  cases hwrong

/-- The same call, whose write succeeds after the close. -/
theorem written_call_reports_the_close : ∃ (l : Link) (x : Exchange), l.Reachable ∧
    l.calls.closed = none ∧
    (l.step (.start 2 .close)).calls.closed = some (.closed "client closed") ∧
    l.callOf (.caller 1) = some x ∧ l.slots.lookup x.id = none ∧ x.stage = .writing ∧
    ∀ m o, (l.step (.start 2 .close)).resume (.caller 1) x .no .written = (m, .over o) →
      o = .error (.closed "client closed") := by
  obtain ⟨l, x, hl, hopen, hend, hx, hnone, hstage⟩ := writing_at_close
  have hr : l.Reachable := ⟨{}, asking, hl⟩
  obtain ⟨-, -, hkept, hlater⟩ := caught_calls_report_one_cause hr hopen hend hx hnone
  refine ⟨l, x, hr, hopen, hend, hx, hnone, hstage, fun m o hresume => ?_⟩
  have ho := (hlater [] x (hkept (by simp [Event.actor?])) rfl).2.1 .no .written m o hresume
  simpa [ownFailure?, hstage] using ho

end ServerLink.Link
