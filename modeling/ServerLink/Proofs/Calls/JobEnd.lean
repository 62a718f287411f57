import ServerLink.Proofs.Calls.Ledger

/-!
# No job's end is missed

The answer to a job call and the last report of its job may come in either order. A report that
comes first is kept, unless `Job.earlyCapacity` others are kept after it (`mem_early_of_unclaimed`),
and ends the call as soon as the answer says which job it is; a report that comes later finds the
call waiting (`endsOf_waiting`). `job_end_is_not_missed` puts both together.
-/

namespace ServerLink.Calls

namespace Event

/-- A report after which no other comes about its job. -/
def lastReport? : Event → Option Job.Report
  | .report e => if e.state.isTerminal then some e else none
  | _ => none

/-- How a call that waits for a job ends by this event: by the job's last report, by its cancel, or
with all calls. -/
def decidesJob (id job : Nat) : Event → Option Slot.End
  | .report e => if e.state.isTerminal ∧ e.id = job then some (.filled e.outcome) else none
  | .cancel call => if call = id then some .abandoned else none
  | .failAll reason => some (.filled (.error reason))
  | .register _ | .answer _ => none

end Event

/-- The last reports in a run, in order. -/
def lastReports (events : List Event) : List Job.Report := events.filterMap Event.lastReport?

/-- The event is a last report that finds nobody waiting for its job. -/
def isUnclaimed (c : Calls) : Event → Bool
  | .report e => e.state.isTerminal && (c.jobs.waiting.lookup e.id).isNone
  | _ => false

/-- How many last reports of a run find nobody waiting for their job. -/
def unclaimed (c : Calls) : List Event → Nat
  | [] => 0
  | e :: es => (if c.isUnclaimed e then 1 else 0) + unclaimed (c.step e).1 es

variable {c : Calls} {id job : Nat}

/-! ## Who waits for a job -/

theorem Starts.unique {r : Response} {job' : Nat} (h : c.Starts r job) (h' : c.Starts r job') :
    job = job' := by
  obtain ⟨-, v, hv, hj⟩ := h
  obtain ⟨-, v', hv', hj'⟩ := h'
  rw [hv] at hv'; cases hv'
  rw [hj] at hj'; exact Option.some.inj hj'

theorem step_starts {r : Response} (hs : c.Starts r job) : c.step (.answer r) =
    ({ c.answered r.id with jobs := (c.jobs.attach job r.id).1 },
      (c.jobs.attach job r.id).2) := by
  rcases step_answer c r with ⟨hn, -⟩ | ⟨kind, -, hno, -⟩ | ⟨job', hs', h⟩
  · have := hs.1
    rw [hn] at this; cases this
  · exact absurd hs (hno job)
  · rw [hs.unique hs', h]

/-- Whoever waits for a job waited before, or has just been answered. -/
theorem waiting_step {e : Event} (h : (job, id) ∈ (c.step e).1.jobs.waiting) :
    (job, id) ∈ c.jobs.waiting ∨ ∃ r, e = .answer r ∧ r.id = id ∧ c.Starts r job := by
  cases e with
  | register kind =>
    cases hc : c.closed with
    | none => simp only [step, register_ok hc] at h; exact .inl h
    | some reason => simp only [step, register_error hc] at h; exact .inl h
  | answer r =>
    rcases step_answer c r with ⟨-, hs⟩ | ⟨kind, -, -, hs⟩ | ⟨job', hst, hs⟩ <;> rw [hs] at h
    · exact .inl h
    · exact .inl h
    · rcases Job.Watch.attach_cases c.jobs job' r.id with ⟨e, -, ha⟩ | ⟨-, ha⟩ <;>
        simp only [ha] at h
      · exact .inl h
      · rcases Table.mem_insert.1 h with ⟨h, -⟩ | h
        · exact .inl h
        · cases h
          exact .inr ⟨r, rfl, rfl, hst⟩
  | report e =>
    rcases step_report c e with ⟨-, hs⟩ | ⟨-, call, -, hs⟩ | ⟨-, -, hs⟩ <;> rw [hs] at h
    · exact .inl h
    · exact .inl (Table.mem_erase.1 h).1
    · exact .inl h
  | cancel call => exact .inl (List.mem_filter.1 h).1
  | failAll reason =>
    cases hc : c.closed with
    | none => rw [step_failAll hc] at h; cases h
    | some why => rw [step_failAll_closed hc] at h; exact .inl h

theorem waiting_run {es : List Event} (h : (job, id) ∈ (c.run es).1.jobs.waiting) :
    (job, id) ∈ c.jobs.waiting ∨ ∃ before r after, es = before ++ .answer r :: after ∧
      r.id = id ∧ (c.run before).1.Starts r job := by
  induction es generalizing c with
  | nil => exact .inl h
  | cons e es ih =>
    rw [run_cons] at h
    rcases ih h with hw | ⟨before, r, after, rfl, hr, hs⟩
    · rcases waiting_step hw with hw | ⟨r, rfl, hr, hs⟩
      · exact .inl hw
      · exact .inr ⟨[], r, es, rfl, hr, hs⟩
    · exact .inr ⟨e :: before, r, after, rfl, hr, by rw [run_cons]; exact hs⟩

/-- Only an admission makes a call pending. -/
theorem pending_of_step {e : Event} {kind : Call.Kind} (he : ∀ kind, e ≠ .register kind)
    (hp : (c.step e).1.pending.lookup id = some kind) : c.pending.lookup id = some kind := by
  have herase : ∀ call, (Table.erase c.pending call).lookup id = some kind →
      c.pending.lookup id = some kind := by
    intro call hc
    by_cases hid : id = call
    · rw [hid, Table.lookup_erase_self] at hc
      cases hc
    · rwa [Table.lookup_erase_ne hid] at hc
  cases e with
  | register kind => exact absurd rfl (he kind)
  | answer r =>
    rcases step_answer c r with ⟨-, hs⟩ | ⟨_, -, -, hs⟩ | ⟨_, -, hs⟩ <;> rw [hs] at hp
    · exact hp
    · exact herase r.id hp
    · exact herase r.id hp
  | report r => exact hp
  | cancel call => exact herase call hp
  | failAll reason =>
    cases hc : c.closed with
    | none =>
      rw [step_failAll hc] at hp
      cases hp
    | some why =>
      rw [step_failAll_closed hc] at hp
      exact hp

/-- A call that is not pending is not pending later. -/
theorem not_pending_step (hid : id < c.nextId) (hp : c.pending.lookup id = none) (e : Event) :
    (c.step e).1.pending.lookup id = none := by
  cases e with
  | register kind =>
    cases hc : c.closed with
    | none =>
      simp only [step, register_ok hc]
      rw [Table.lookup_insert_ne (Nat.ne_of_lt hid), hp]
    | some reason => simp only [step, register_error hc, hp]
  | answer r =>
    rcases step_answer c r with ⟨-, hs⟩ | ⟨kind, -, -, hs⟩ | ⟨job', -, hs⟩ <;> rw [hs]
    · exact hp
    · exact Table.erase_sublist.lookup_eq_none hp
    · exact Table.erase_sublist.lookup_eq_none hp
  | report e => exact hp
  | cancel call => exact Table.erase_sublist.lookup_eq_none hp
  | failAll reason =>
    cases hc : c.closed with
    | none => rw [step_failAll hc]; rfl
    | some why => rw [step_failAll_closed hc]; exact hp

theorem not_pending_run (hid : id < c.nextId) (hp : c.pending.lookup id = none)
    (es : List Event) : (c.run es).1.pending.lookup id = none := by
  induction es generalizing c with
  | nil => exact hp
  | cons e es ih =>
    rw [run_cons]
    exact ih (Nat.lt_of_lt_of_le hid (nextId_le_step c e)) (not_pending_step hid hp e)

/-! ## A call that waits for its job -/

/-- Until an event decides about it, a call waits for its job, unless another call takes its
place. -/
theorem waiting_step_of_undecided (h : c.Inv) (hw : c.jobs.waiting.lookup job = some id)
    {e : Event} (hd : e.decidesJob id job = none) (hno : ∀ r, e = .answer r → ¬ c.Starts r job) :
    (c.step e).1.jobs.waiting.lookup job = some id := by
  cases e with
  | register kind =>
    have hopen := h.isOpen (mem_held.2 (outstanding_of_waiting hw))
    simp only [step, register_ok hopen, hw]
  | answer r =>
    rcases step_answer c r with ⟨-, hs⟩ | ⟨kind, -, -, hs⟩ | ⟨job', hst, hs⟩ <;> rw [hs]
    · exact hw
    · exact hw
    · have hne : job ≠ job' := fun he => hno r rfl (he ▸ hst)
      rcases Job.Watch.attach_cases c.jobs job' r.id with ⟨e, -, ha⟩ | ⟨-, ha⟩ <;> simp only [ha]
      · exact hw
      · rw [Table.lookup_insert_ne hne, hw]
  | report e =>
    rcases step_report c e with ⟨-, hs⟩ | ⟨ht, call, -, hs⟩ | ⟨-, -, hs⟩ <;> rw [hs]
    · exact hw
    · have hne : job ≠ e.id := fun he => by simp [Event.decidesJob, ht, he] at hd
      exact (Table.lookup_erase_ne hne).trans hw
    · exact hw
  | cancel call =>
    have hne : id ≠ call := fun he => by simp [Event.decidesJob, he] at hd
    have hmem : (job, id) ∈ c.jobs.waiting.filter (·.2 ≠ call) :=
      List.mem_filter.2 ⟨Table.mem_of_lookup hw, by simpa using hne⟩
    exact Table.lookup_of_mem (h.jobs.forget call).once hmem
  | failAll reason => simp [Event.decidesJob] at hd

/-- How a call ends that waits for a job: as the first event says that decides about it, if no
other call takes its place. -/
theorem endsOf_waiting (h : c.Inv) (hw : c.jobs.waiting.lookup job = some id) {es : List Event}
    (hno : ∀ before r after, es = before ++ .answer r :: after →
      ¬ (c.run before).1.Starts r job) :
    endsOf id (c.run es).2 = (es.findSome? (Event.decidesJob id job)).toList := by
  refine endsOf_run_eq_findSome (fun c => c.jobs.waiting.lookup job = some id)
    (fun c e => ∀ r, e = .answer r → ¬ c.Starts r job) (fun c hc => outstanding_of_waiting hc)
    ?_ ?_ h hw es fun before e after he r hr => hno before r after (by rw [he, hr])
  · intro c e h hw hno hd
    exact waiting_step_of_undecided h hw hd hno
  · intro c e x h hw _ hd
    cases e with
    | register kind => simp [Event.decidesJob] at hd
    | answer r => simp [Event.decidesJob] at hd
    | report e =>
      simp only [Event.decidesJob, Option.ite_none_right_eq_some, Option.some.injEq] at hd
      obtain ⟨⟨ht, rfl⟩, rfl⟩ := hd
      rcases step_report c e with ⟨hf, -⟩ | ⟨-, call, hl, hs⟩ | ⟨-, hl, -⟩
      · rw [ht] at hf; cases hf
      · rw [hw] at hl; cases hl
        rw [hs, endsOf_filled, if_pos rfl]
      · rw [hw] at hl; cases hl
    | cancel call =>
      simp only [Event.decidesJob, Option.ite_none_right_eq_some, Option.some.injEq] at hd
      obtain ⟨rfl, rfl⟩ := hd
      exact endsOf_cancel h (outstanding_of_waiting hw)
    | failAll reason =>
      simp only [Event.decidesJob, Option.some.injEq] at hd
      subst hd
      exact endsOf_failAll h (outstanding_of_waiting hw) reason

/-! ## Reports that are kept -/

/-- What an event does to the reports kept: it leaves them, or keeps one more, or hands the first
one about a job to the call that starts the wait for it, or forgets them with all calls. -/
theorem early_step (c : Calls) (e : Event) :
    (c.isUnclaimed e = false ∧ (c.step e).1.jobs.early = c.jobs.early) ∨
    (∃ x, e = .report x ∧ x.state.isTerminal = true ∧ c.isUnclaimed e = true ∧
      (c.step e).1.jobs = c.jobs.remember x) ∨
    (∃ r job, e = .answer r ∧ c.Starts r job ∧
      (c.step e).1.jobs.early = c.jobs.early.eraseP (·.id = job)) ∨
    ((c.step e).1.closed.isSome ∧ (c.step e).1.jobs.early = []) := by
  cases e with
  | register kind =>
    cases hc : c.closed with
    | none => exact .inl ⟨rfl, by simp only [step, register_ok hc]⟩
    | some reason => exact .inl ⟨rfl, by simp only [step, register_error hc]⟩
  | answer r =>
    rcases step_answer c r with ⟨-, hs⟩ | ⟨kind, -, -, hs⟩ | ⟨job, hst, hs⟩ <;> rw [hs]
    · exact .inl ⟨rfl, rfl⟩
    · exact .inl ⟨rfl, rfl⟩
    · rcases Job.Watch.attach_cases c.jobs job r.id with ⟨e, -, ha⟩ | ⟨-, ha⟩ <;> rw [ha]
      · exact .inr (.inr (.inl ⟨r, job, rfl, hst, rfl⟩))
      · exact .inl ⟨rfl, rfl⟩
  | report x =>
    rcases step_report c x with ⟨ht, hs⟩ | ⟨-, call, hl, hs⟩ | ⟨ht, hl, hs⟩ <;> rw [hs]
    · exact .inl ⟨by simp [isUnclaimed, ht], rfl⟩
    · exact .inl ⟨by simp [isUnclaimed, hl], rfl⟩
    · exact .inr (.inl ⟨x, rfl, ht, by simp [isUnclaimed, ht, hl], rfl⟩)
  | cancel call => exact .inl ⟨rfl, rfl⟩
  | failAll reason =>
    cases hc : c.closed with
    | none => rw [step_failAll hc]; exact .inr (.inr (.inr ⟨rfl, rfl⟩))
    | some why => rw [step_failAll_closed hc]; exact .inl ⟨rfl, rfl⟩

/-- The reports kept are last reports of the run, in their order. -/
theorem early_run_sublist (c : Calls) (es : List Event) :
    (c.run es).1.jobs.early.Sublist (c.jobs.early ++ lastReports es) := by
  induction es generalizing c with
  | nil => simp [lastReports]
  | cons e es ih =>
    have hstep : (c.step e).1.jobs.early.Sublist (c.jobs.early ++ lastReports [e]) := by
      rcases early_step c e with ⟨-, hs⟩ | ⟨x, rfl, ht, -, hs⟩ | ⟨r, job, -, -, hs⟩ | ⟨-, hs⟩ <;>
        rw [hs]
      · exact List.sublist_append_left _ _
      · have : lastReports [.report x] = [x] := by simp [lastReports, Event.lastReport?, ht]
        rw [this]
        refine List.Sublist.append ?_ (.refl _)
        split
        · exact List.drop_sublist 1 _
        · exact .refl _
      · exact (List.eraseP_sublist).trans (List.sublist_append_left _ _)
      · exact List.nil_sublist _
    have hcons : lastReports (e :: es) = lastReports [e] ++ lastReports es := by
      rw [lastReports, ← List.singleton_append, List.filterMap_append]
      rfl
    rw [run_cons, hcons, ← List.append_assoc]
    exact (ih _).trans (hstep.append (.refl _))

/-- While all calls go on and nobody asks for its job, a report is kept that has fewer than
`Job.earlyCapacity` behind it; each unclaimed report puts one more behind it at most. -/
theorem kept_step {x : Job.Report} {front back : List Job.Report} {e : Event}
    (hx : c.jobs.early = front ++ x :: back) (hno : ∀ r, e = .answer r → ¬ c.Starts r x.id)
    (hopen : (c.step e).1.closed = none)
    (hroom : c.isUnclaimed e = true → back.length + 1 < Job.earlyCapacity) :
    ∃ front' back', (c.step e).1.jobs.early = front' ++ x :: back' ∧
      back'.length ≤ back.length + if c.isUnclaimed e then 1 else 0 := by
  rcases early_step c e with ⟨-, hs⟩ | ⟨y, -, -, hu, hs⟩ | ⟨r, job, rfl, hst, hs⟩ | ⟨hc, -⟩
  · exact ⟨front, back, hs.trans hx, Nat.le_add_right _ _⟩
  · have hlt := hroom hu
    rw [hs, Job.Watch.remember, hx]
    by_cases hfull : (front ++ x :: back).length = Job.earlyCapacity
    · -- the oldest report goes, and it is in front of this one
      cases front with
      | nil => simp only [List.nil_append, List.length_cons] at hfull; omega
      | cons f front =>
        refine ⟨front, back ++ [y], ?_, by simp [hu]⟩
        simp only [hfull, ↓reduceIte]
        simp
    · refine ⟨front, back ++ [y], ?_, by simp [hu]⟩
      simp only [hfull, ↓reduceIte]
      simp
  · have hne : x.id ≠ job := fun he => hno r rfl (he ▸ hst)
    rw [hs, hx, List.eraseP_append]
    split
    · exact ⟨_, back, rfl, Nat.le_add_right _ _⟩
    · refine ⟨front, back.eraseP (·.id = job), by simp [hne], ?_⟩
      exact Nat.le_trans List.length_eraseP_le (Nat.le_add_right _ _)
  · rw [hopen] at hc; cases hc

/-- The end of all calls lasts. -/
theorem closed_run_of_some {reason : LinkError} (h : c.closed = some reason) (es : List Event) :
    (c.run es).1.closed = some reason := by
  induction es generalizing c with
  | nil => exact h
  | cons e es ih =>
    rw [run_cons]
    refine ih ?_
    rw [closed_step, h]
    cases e <;> rfl

theorem kept_run {x : Job.Report} {front back : List Job.Report} {es : List Event}
    (hx : c.jobs.early = front ++ x :: back)
    (hno : ∀ before r after, es = before ++ .answer r :: after →
      ¬ (c.run before).1.Starts r x.id)
    (hopen : (c.run es).1.closed = none)
    (hroom : back.length + c.unclaimed es < Job.earlyCapacity) : x ∈ (c.run es).1.jobs.early := by
  induction es generalizing c front back with
  | nil => rw [run_nil, hx]; simp
  | cons e es ih =>
    rw [run_cons] at hopen ⊢
    have hopen' : (c.step e).1.closed = none := by
      cases hc : (c.step e).1.closed with
      | none => rfl
      | some reason =>
        simp only [closed_run_of_some hc es] at hopen
        cases hopen
    rw [unclaimed] at hroom
    obtain ⟨front', back', hx', hle⟩ := kept_step hx (fun r hr => hno [] r es (by rw [hr]; rfl))
      hopen' (fun hu => by rw [hu] at hroom; simp only [↓reduceIte] at hroom; omega)
    refine ih hx' (fun before r after he => ?_) hopen (by omega)
    have := hno (e :: before) r after (by rw [he]; rfl)
    rwa [run_cons] at this

/-! ## Both orders -/

/-- A call whose answer has started the wait for a job is not pending any more. -/
theorem not_pending_after_start (h : c.Inv) {r : Response} (hs : c.Starts r job)
    (es : List Event) : ((c.step (.answer r)).1.run es).1.pending.lookup r.id = none := by
  have hlt := outstanding_lt h (outstanding_of_pending hs.1)
  refine not_pending_run (Nat.lt_of_lt_of_le hlt (nextId_le_step c (.answer r))) ?_ es
  rw [step_starts hs]
  exact Table.lookup_erase_self

/-- The call that a job's answer is for has not ended before. -/
theorem endsOf_before_start {before : List Event} {r : Response}
    (hs : (run {} before).1.Starts r job) : endsOf r.id (run {} before).2 = [] := by
  have ho := outstanding_of_pending hs.1
  have hl := ledger Inv.empty before r.id
  have hzero : ({} : Calls).held.count r.id = 0 := rfl
  have hpos := List.count_pos_iff.2 (mem_held.2 ho)
  refine List.length_eq_zero_iff.1 ?_
  split at hl <;> omega

section
variable {before after : List Event} {r : Response}
  (hs : (run {} before).1.Starts r job)
  (hone : ∀ before' r' after', before ++ .answer r :: after = before' ++ .answer r' :: after' →
    (run {} before').1.Starts r' job → r'.id = r.id)
include hs hone

/-- Before the one answer that names a job, no other does. -/
theorem no_start_before {earlier between : List Event} {r' : Response}
    (he : before = earlier ++ .answer r' :: between) : ¬ (run {} earlier).1.Starts r' job := by
  intro hs'
  have hid : r'.id = r.id := hone earlier r' (between ++ .answer r :: after) (by rw [he]; simp) hs'
  have hp := not_pending_after_start (Inv.empty.run earlier) hs' between
  have hrun : (run {} before).1 = (((run {} earlier).1.step (.answer r')).1.run between).1 := by
    rw [he, run_append, run_cons]
  have := hs.1
  rw [hrun, ← hid, hp] at this
  cases this

/-- Before the one answer that names a job, nobody waits for the job. -/
theorem nobody_waits {earlier rest : List Event} (he : before = earlier ++ rest) :
    (run {} earlier).1.jobs.waiting.lookup job = none := by
  cases hl : (run {} earlier).1.jobs.waiting.lookup job with
  | none => rfl
  | some other =>
    rcases waiting_run (Table.mem_of_lookup hl) with hw | ⟨before', r', after', he', -, hs'⟩
    · simp at hw
    · have hb : before = before' ++ .answer r' :: (after' ++ rest) := by rw [he, he']; simp
      exact absurd hs' (no_start_before hs hone hb)

/-- After the one answer that names a job, no other does. -/
theorem no_start_after {before' after' : List Event} {r' : Response}
    (he : after = before' ++ .answer r' :: after') :
    ¬ (((run {} before).1.step (.answer r)).1.run before').1.Starts r' job := by
  intro hs'
  have hrun : (run {} (before ++ .answer r :: before')).1 =
      (((run {} before).1.step (.answer r)).1.run before').1 := by rw [run_append, run_cons]
  have hid : r'.id = r.id := hone (before ++ .answer r :: before') r' after'
    (by rw [he]; simp) (hrun ▸ hs')
  have hp := not_pending_after_start (Inv.empty.run before) hs before'
  rw [← hid, hs'.1] at hp
  cases hp

/-- A last report that comes before the one answer that names its job is kept, if fewer than
`Job.earlyCapacity` unclaimed ones come after it. -/
theorem mem_early_of_unclaimed {earlier between : List Event} {e : Job.Report}
    (he : before = earlier ++ .report e :: between) (hid : e.id = job)
    (ht : e.state.isTerminal = true)
    (hroom : (run {} (earlier ++ [.report e])).1.unclaimed between < Job.earlyCapacity) :
    e ∈ (run {} before).1.jobs.early := by
  subst hid
  have hnobody := nobody_waits hs hone he
  have hstep : ((run {} earlier).1.step (.report e)).1.jobs =
      (run {} earlier).1.jobs.remember e := by
    rcases step_report (run {} earlier).1 e with ⟨hf, -⟩ | ⟨-, call, hl, -⟩ | ⟨-, -, hstep⟩
    · rw [ht] at hf; cases hf
    · rw [hnobody] at hl; cases hl
    · rw [hstep]
  have hnow : (run {} (earlier ++ [.report e])).1 = ((run {} earlier).1.step (.report e)).1 := by
    rw [run_append, run_singleton]
  have hrun : (run {} before).1 = (((run {} earlier).1.step (.report e)).1.run between).1 := by
    rw [he, run_append, run_cons]
  have hopen := (Inv.empty.run before).isOpen (mem_held.2 (outstanding_of_pending hs.1))
  rw [hnow] at hroom
  rw [hrun] at hopen ⊢
  refine kept_run (congrArg (·.early) hstep) (fun before' r' after' hb => ?_) hopen
    (by simpa using hroom)
  have hb' : before = (earlier ++ .report e :: before') ++ .answer r' :: after' := by
    rw [he, hb]; simp
  have := no_start_before hs hone hb'
  rwa [run_append, run_cons] at this

end

/-- **No end is missed.** Let `r` be the answer to a job call that names `job`, and let no other
call's answer name it. If a last report of `job` is kept when `r` comes, the earliest of those
kept ends the call at once. Otherwise the first last report after `r` ends it, if its cancel and
the end of all calls do not come before. The reports kept are last reports of the run so far, in
their order, and a report of `job` is still kept when fewer than `Job.earlyCapacity` unclaimed ones
came after it. What a report says is what the call comes to. -/
theorem job_end_is_not_missed {before after : List Event} {r : Response} {job : Nat}
    (hs : (run {} before).1.Starts r job)
    (hone : ∀ before' r' after', before ++ .answer r :: after = before' ++ .answer r' :: after' →
      (run {} before').1.Starts r' job → r'.id = r.id) :
    let c := (run {} before).1
    let ends := endsOf r.id (run {} (before ++ .answer r :: after)).2
    (∀ e, c.jobs.early.find? (·.id = job) = some e →
      (c.step (.answer r)).2 = [.filled r.id e.outcome] ∧ ends = [.filled e.outcome]) ∧
    (c.jobs.early.find? (·.id = job) = none →
      (c.step (.answer r)).2 = [] ∧
        ends = (after.findSome? (Event.decidesJob r.id job)).toList) ∧
    c.jobs.early.Sublist (lastReports before) ∧
    (∀ earlier e between, before = earlier ++ .report e :: between → e.id = job →
      e.state.isTerminal →
      (run {} (earlier ++ [.report e])).1.unclaimed between < Job.earlyCapacity →
      e ∈ c.jobs.early) ∧
    ∀ e : Job.Report, (e.state = .success → e.outcome = .ok e.result) ∧
      (e.state = .failed ∨ e.state = .aborted → ∃ f, e.outcome = .error (.job f) ∧
        f.jobId = e.id ∧ f.state = e.state ∧ f.payload = e.payload) := by
  intro c ends
  have hinv : c.Inv := Inv.empty.run before
  have hnobody : c.jobs.waiting.lookup job = none :=
    nobody_waits hs hone (List.append_nil before).symm
  have hlt : r.id < c.nextId := outstanding_lt hinv (outstanding_of_pending hs.1)
  have hlt' := Nat.lt_of_lt_of_le hlt (nextId_le_step c (.answer r))
  have hends : ends = endsOf r.id (c.step (.answer r)).2 ++
      endsOf r.id ((c.step (.answer r)).1.run after).2 := by
    show endsOf r.id (run {} (before ++ .answer r :: after)).2 = _
    rw [run_append, run_cons, endsOf_append, endsOf_append, endsOf_before_start hs,
      List.nil_append]
  refine ⟨fun e he => ?_, fun hn => ?_, early_run_sublist {} before, ?_, fun e => ⟨?_, ?_⟩⟩
  · have hstep : (c.step (.answer r)).2 = [.filled r.id e.outcome] := by
      rw [step_starts hs, Job.Watch.attach, he]
    have hnow : endsOf r.id (c.step (.answer r)).2 = [.filled e.outcome] := by
      rw [hstep, endsOf_filled, if_pos rfl]
    have hgone := not_outstanding_of_ended hinv hlt hnow
    rw [hends, hnow, endsOf_run_of_ended (hinv.step _) hlt' hgone]
    exact ⟨hstep, rfl⟩
  · have hstep : (c.step (.answer r)).2 = [] := by
      rw [step_starts hs, Job.Watch.attach, hn]
      show ((c.jobs.waiting.lookup job).map Settlement.abandoned).toList = []
      rw [hnobody]
      rfl
    have hwaits : (c.step (.answer r)).1.jobs.waiting.lookup job = some r.id := by
      rw [step_starts hs, Job.Watch.attach, hn]
      exact Table.lookup_insert_self
    rw [hends, hstep, endsOf_nil, List.nil_append]
    exact ⟨rfl, endsOf_waiting (hinv.step _) hwaits fun _ _ _ he => no_start_after hs hone he⟩
  · intro earlier e between he hid ht hroom
    exact mem_early_of_unclaimed hs hone he hid ht hroom
  · intro h
    simp [Job.Report.outcome, h]
  · intro h
    refine ⟨.ofReport e, ?_, rfl, rfl, rfl⟩
    rcases h with h | h <;> simp [Job.Report.outcome, h]

/-- A job whose last report comes before the answer that names it. -/
def reportFirst : List Event :=
  [.register .job, .report { id := 77, state := .success, result := .ofNat 5 }]

/-- The answer to the call that started it. -/
def lateAnswer : Response := .success 1 (.ofNat 77)

theorem report_first_ends_call : (run {} reportFirst).1.Starts lateAnswer 77 ∧
    endsOf 1 (run {} (reportFirst ++ [.answer lateAnswer])).2 = [.filled (.ok (.ofNat 5))] := by
  have hs : (run {} reportFirst).1.Starts lateAnswer 77 := ⟨rfl, .ofNat 77, rfl, rfl⟩
  refine ⟨hs, (((job_end_is_not_missed hs fun before' r' after' he _ => ?_).1 _ rfl).2)⟩
  have hm : Event.answer r' ∈ reportFirst ++ .answer lateAnswer :: [] := by rw [he]; simp
  simp only [reportFirst, List.cons_append, List.nil_append, List.mem_cons, reduceCtorEq,
    List.not_mem_nil, or_false, false_or, Event.answer.injEq] at hm
  rw [hm]

end ServerLink.Calls
