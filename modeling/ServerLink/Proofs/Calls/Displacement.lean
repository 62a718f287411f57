import ServerLink.Proofs.Calls.JobEnd

/-!
# Calls that lose their place

A job has one place for a call that waits for it. When the answers to two job calls name the same
job, the call answered later takes the place of the other, whose slot is given up (`Displaces`).
What an event can settle (`mem_step`) shows that, apart from its cancel, this is the only way in
which a call ends without an outcome (`abandoned_step`, `abandoned_run`). A call that keeps its
place gets its job's last report (`endsOf_report`).
-/

namespace ServerLink.Calls

/-- By this event another call takes the place in which a call waits for its job. -/
def Displaces (c : Calls) (e : Event) (id : Nat) : Prop :=
  ∃ r job, e = .answer r ∧ c.Starts r job ∧ c.jobs.waiting.lookup job = some id

/-- In this run a call starts to wait for the job. -/
def Asked (c : Calls) (job : Nat) (es : List Event) : Prop :=
  ∃ before r after, es = before ++ .answer r :: after ∧ (c.run before).1.Starts r job

variable {c : Calls} {id job : Nat}

/-! ## One event -/

/-- A call that waits for a job finds no report of it kept, so the next one takes its place. -/
theorem attach_waiting (h : c.Inv) (hw : c.jobs.waiting.lookup job = some id) (call : Nat) :
    c.jobs.attach job call =
      ({ c.jobs with waiting := Table.insert c.jobs.waiting job call }, [.abandoned id]) := by
  rcases Job.Watch.attach_cases c.jobs job call with ⟨e, he, -⟩ | ⟨-, hs⟩
  · have hn := h.jobs.early e (List.mem_of_find?_eq_some he)
    have hj : e.id = job := by simpa using List.find?_some he
    rw [hj, hw] at hn
    cases hn
  · rw [hs, hw]
    rfl

theorem endsOf_displaced (h : c.Inv) {e : Event} (hd : c.Displaces e id) :
    endsOf id (c.step e).2 = [.abandoned] := by
  obtain ⟨r, job, rfl, hs, hw⟩ := hd
  rw [step_starts hs, attach_waiting h hw, endsOf_abandoned, if_pos rfl]

/-- How an event can settle a slot: by the answer to a call, by what a report says, with all calls,
or by giving it up. -/
theorem mem_step {e : Event} {s : Settlement} (hm : s ∈ (c.step e).2) :
    (∃ kind r, e = .answer r ∧ s.how = .filled (direct kind r)) ∨
    (∃ x : Job.Report, s.how = .filled x.outcome) ∨
    (∃ reason, e = .failAll reason ∧ s.how = .filled (.error reason)) ∨
    (s.how = .abandoned ∧ c.Outstanding s.call ∧ (e = .cancel s.call ∨ c.Displaces e s.call)) := by
  cases e with
  | register kind =>
    cases hc : c.closed with
    | none => simp [step, register_ok hc] at hm
    | some reason => simp [step, register_error hc] at hm
  | answer r =>
    rcases step_answer c r with ⟨-, hs⟩ | ⟨kind, -, -, hs⟩ | ⟨job, hst, hs⟩ <;> rw [hs] at hm
    · cases hm
    · rw [List.mem_singleton.1 hm]
      exact .inl ⟨kind, r, rfl, rfl⟩
    · rcases Job.Watch.attach_cases c.jobs job r.id with ⟨x, -, ha⟩ | ⟨-, ha⟩ <;> rw [ha] at hm
      · rw [List.mem_singleton.1 hm]
        exact .inr (.inl ⟨x, rfl⟩)
      · cases hl : c.jobs.waiting.lookup job with
        | none => simp [hl] at hm
        | some old =>
          rw [hl] at hm
          rw [List.mem_singleton.1 hm]
          exact .inr (.inr (.inr ⟨rfl, outstanding_of_waiting hl, .inr ⟨r, job, rfl, hst, hl⟩⟩))
  | report x =>
    rcases step_report c x with ⟨-, hs⟩ | ⟨-, call, -, hs⟩ | ⟨-, -, hs⟩ <;> rw [hs] at hm
    · cases hm
    · rw [List.mem_singleton.1 hm]
      exact .inr (.inl ⟨x, rfl⟩)
    · cases hm
  | cancel call =>
    refine .inr (.inr (.inr ?_))
    rcases List.mem_append.1 hm with hm | hm
    · cases hl : c.pending.lookup call with
      | none => simp [hl] at hm
      | some kind =>
        rw [hl] at hm
        rw [List.mem_singleton.1 hm]
        exact ⟨rfl, outstanding_of_pending hl, .inl rfl⟩
    · obtain ⟨x, hx, rfl⟩ := List.mem_map.1 hm
      obtain ⟨hx, hcall⟩ := List.mem_filter.1 hx
      have hcall : x.2 = call := by simpa using hcall
      exact ⟨rfl, .inr (List.mem_map.2 ⟨x, hx, rfl⟩), .inl (congrArg _ hcall.symm)⟩
  | failAll reason =>
    cases hc : c.closed with
    | none =>
      rw [step_failAll hc] at hm
      obtain ⟨id, -, rfl⟩ := List.mem_map.1 hm
      exact .inr (.inr (.inl ⟨reason, rfl, rfl⟩))
    | some why => rw [step_failAll_closed hc] at hm; cases hm

/-- **What gives a slot up.** An event gives up the slot of an outstanding call if it cancels the
call or takes its place, and in no other case. -/
theorem abandoned_step (h : c.Inv) (e : Event) : .abandoned ∈ endsOf id (c.step e).2 ↔
    c.Outstanding id ∧ (e = .cancel id ∨ c.Displaces e id) := by
  constructor
  · intro hm
    rcases mem_step (mem_endsOf.1 hm) with ⟨_, _, _, he⟩ | ⟨_, he⟩ | ⟨_, _, he⟩ | ⟨-, hlost⟩
    · cases he
    · cases he
    · cases he
    · exact hlost
  · rintro ⟨ho, rfl | hd⟩
    · rw [endsOf_cancel h ho]; simp
    · rw [endsOf_displaced h hd]; simp

/-- An event leaves an outstanding call outstanding or ends it once. -/
theorem outstanding_step (h : c.Inv) (ho : c.Outstanding id) (e : Event) :
    ((c.step e).1.Outstanding id ∧ endsOf id (c.step e).2 = []) ∨
      (¬ (c.step e).1.Outstanding id ∧ ∃ x, endsOf id (c.step e).2 = [x]) := by
  have hlt := outstanding_lt h ho
  by_cases ho' : (c.step e).1.Outstanding id
  · exact .inl ⟨ho', endsOf_step_of_outstanding h hlt ho'⟩
  · have hl := ledger_step h e id
    rw [if_neg (by omega), List.count_eq_zero.2 (mt mem_held.1 ho'), h.once.count,
      if_pos (mem_held.2 ho)] at hl
    exact .inr ⟨ho', List.length_eq_one_iff.1 (by omega)⟩

/-- An event loses a call only by its cancel or by taking its place. -/
theorem outstanding_step_iff (h : c.Inv) (ho : c.Outstanding id) (e : Event) :
    ((c.step e).1.Outstanding id ∧ endsOf id (c.step e).2 = [] ∨
      ¬ (c.step e).1.Outstanding id ∧ ∃ o, endsOf id (c.step e).2 = [.filled o]) ↔
    e ≠ .cancel id ∧ ¬ c.Displaces e id := by
  have hiff : .abandoned ∈ endsOf id (c.step e).2 ↔ _ := abandoned_step h e
  constructor
  · intro hkept
    have hno : .abandoned ∉ endsOf id (c.step e).2 := by
      rcases hkept with ⟨-, hs⟩ | ⟨-, o, hs⟩ <;> simp [hs]
    exact ⟨fun he => hno (hiff.2 ⟨ho, .inl he⟩), fun hd => hno (hiff.2 ⟨ho, .inr hd⟩)⟩
  · rintro ⟨hc, hd⟩
    rcases outstanding_step h ho e with hs | ⟨ho', x, hx⟩
    · exact .inl hs
    · cases x with
      | filled o => exact .inr ⟨ho', o, hx⟩
      | abandoned =>
        have := (hiff.1 (by rw [hx]; simp)).2
        rcases this with he | he
        · exact absurd he hc
        · exact absurd he hd

/-! ## Runs -/

/-- A run gives up the slot of a call at the call's cancel, or when another takes its place. -/
theorem abandoned_run (h : c.Inv) (es : List Event) : .abandoned ∈ endsOf id (c.run es).2 ↔
    ∃ before e after, es = before ++ e :: after ∧ (c.run before).1.Outstanding id ∧
      (e = .cancel id ∨ (c.run before).1.Displaces e id) := by
  induction es generalizing c with
  | nil => simp
  | cons e es ih =>
    rw [run_cons, endsOf_append, List.mem_append, abandoned_step h, ih (h.step e)]
    constructor
    · rintro (hnow | ⟨before, e', after, rfl, hlater⟩)
      · exact ⟨[], e, es, rfl, hnow⟩
      · exact ⟨e :: before, e', after, rfl, by rw [run_cons]; exact hlater⟩
    · rintro ⟨before, e', after, he, hlost⟩
      cases before with
      | nil => cases he; exact .inl hlost
      | cons e' before =>
        cases he
        rw [run_cons] at hlost
        exact .inr ⟨before, _, after, rfl, hlost⟩

theorem asked_cons (c : Calls) (e : Event) (es : List Event) : c.Asked job (e :: es) ↔
    (∃ r, e = .answer r ∧ c.Starts r job) ∨ (c.step e).1.Asked job es := by
  constructor
  · rintro ⟨before, r, after, he, hs⟩
    cases before with
    | nil => cases he; exact .inl ⟨r, rfl, hs⟩
    | cons e' before =>
      cases he
      rw [run_cons] at hs
      exact .inr ⟨before, r, after, rfl, hs⟩
  · rintro (⟨r, rfl, hs⟩ | ⟨before, r, after, rfl, hs⟩)
    · exact ⟨[], r, es, rfl, hs⟩
    · exact ⟨e :: before, r, after, rfl, by rw [run_cons]; exact hs⟩

/-- A call that waits for a job when its last report comes gets what the report says, unless another
call has come to wait for the job in between: then its slot was given up. -/
theorem endsOf_report (h : c.Inv) (hw : c.jobs.waiting.lookup job = some id) {between : List Event}
    (hd : between.findSome? (Event.decidesJob id job) = none) {x : Job.Report} (hx : x.id = job)
    (ht : x.state.isTerminal) (rest : List Event) :
    (c.Asked job between → endsOf id (c.run (between ++ .report x :: rest)).2 = [.abandoned]) ∧
      (¬ c.Asked job between →
        endsOf id (c.run (between ++ .report x :: rest)).2 = [.filled x.outcome]) := by
  have hlt := outstanding_lt h (outstanding_of_waiting hw)
  induction between generalizing c with
  | nil =>
    refine ⟨fun ⟨before, r, after, he, _⟩ => by simp at he, fun _ => ?_⟩
    have hnow : endsOf id (c.step (.report x)).2 = [.filled x.outcome] := by
      rcases step_report c x with ⟨hf, -⟩ | ⟨-, call, hl, hs⟩ | ⟨-, hl, -⟩
      · rw [ht] at hf; cases hf
      · rw [hx, hw] at hl; cases hl
        rw [hs, endsOf_filled, if_pos rfl]
      · rw [hx, hw] at hl; cases hl
    rw [List.nil_append, run_cons, endsOf_append, hnow,
      endsOf_run_of_ended (h.step _) (Nat.lt_of_lt_of_le hlt (nextId_le_step c _))
        (not_outstanding_of_ended h hlt hnow)]
    rfl
  | cons e between ih =>
    have hlt' := Nat.lt_of_lt_of_le hlt (nextId_le_step c e)
    obtain ⟨hnow, hlater⟩ : e.decidesJob id job = none ∧
        between.findSome? (Event.decidesJob id job) = none := by simpa using hd
    rw [asked_cons, List.cons_append, run_cons, endsOf_append]
    by_cases htaken : ∃ r, e = .answer r ∧ c.Starts r job
    · have hgone : endsOf id (c.step e).2 = [.abandoned] := by
        obtain ⟨r, he, hs⟩ := htaken
        exact endsOf_displaced h ⟨r, job, he, hs, hw⟩
      rw [hgone, endsOf_run_of_ended (h.step e) hlt' (not_outstanding_of_ended h hlt hgone)]
      exact ⟨fun _ => rfl, fun hno => absurd (.inl htaken) hno⟩
    · have hw' := waiting_step_of_undecided h hw hnow fun r he hs => htaken ⟨r, he, hs⟩
      rw [endsOf_step_of_outstanding h hlt (outstanding_of_waiting hw'), List.nil_append]
      have := ih (h.step e) hw' hlater hlt'
      exact ⟨fun ha => this.1 (ha.resolve_left htaken), fun hno => this.2 fun ha => hno (.inr ha)⟩

end ServerLink.Calls
