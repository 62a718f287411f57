import ServerLink.Proofs.Link.Steps

/-!
# Calls lost to a shared job

On a connection that is open, a task is told that it is closed in one case: the task has a call
that waits for a job, and the answer to another job call names the same job (`Displaces`). All
other calls end by their own answer, report, cancel or time, or with the connection.
-/

namespace ServerLink.Link

/-- The event brings an answer by which another call takes the place of this one. -/
def Displaces (l : Link) (e : Event) (id : Nat) : Prop :=
  ∃ i text r, e = .receive i ∧ l.reader = .running ∧ i.frame? = some text ∧
    Frame.ofText text = .ok (.answer r) ∧ l.calls.Displaces (.answer r) id

variable {lost : Nat → Prop} {l m : Link} {id task : Nat} {reason : String}

/-! ## Slots that are given up -/

/-- Only an answer that displaces a call gives its slot up where its task can see it. -/
theorem abandoned_perform (h : l.Inv) {o : Op}
    (ha : (l.perform o).slots.lookup id = some .abandoned) :
    l.slots.lookup id = some .abandoned ∨
      ∃ r, o = .answer r ∧ l.calls.Displaces (.answer r) id := by
  rw [slots_perform] at ha
  split at ha
  · cases ha
  · rcases Option.or_eq_some_iff.1 ha with ha | ⟨-, ha⟩
    · have hm := List.mem_of_getLast? ha
      cases o with
      | answer r =>
        rcases ((Calls.abandoned_step h.calls _).1 hm).2 with he | hd
        · cases he
        · exact .inr ⟨r, rfl, hd⟩
      | report r =>
        rcases ((Calls.abandoned_step h.calls _).1 hm).2 with he | ⟨_, _, he, _⟩ <;> cases he
      | teardown why =>
        rcases ((Calls.abandoned_step h.calls _).1 hm).2 with he | ⟨_, _, he, _⟩ <;> cases he
      | _ => cases hm
    · exact .inl ha

theorem Move.abandoned (hm : Move lost l m) (h : l.Inv)
    (ha : m.slots.lookup id = some .abandoned) : l.slots.lookup id = some .abandoned := by
  cases hm with
  | op o ho =>
    rcases abandoned_perform h ha with ha | ⟨r, rfl, -⟩
    · exact ha
    · cases ho
  | _ => exact ha

theorem Moves.abandoned (hm : Moves lost l m) (h : l.Inv)
    (ha : m.slots.lookup id = some .abandoned) : l.slots.lookup id = some .abandoned := by
  induction hm with
  | refl => exact ha
  | tail hn hm ih => exact ih (hm.abandoned (h.moves hn) ha)

theorem abandoned_event (h : l.Inv) {e : Event}
    (ha : (l.step e).slots.lookup id = some .abandoned) :
    l.slots.lookup id = some .abandoned ∨ l.Displaces e id := by
  rcases step_moves h e with hm | ⟨i, text, o, he, hr, hi, ho, hs⟩
  · exact .inl (hm.abandoned h ha)
  · rw [hs] at ha
    rcases abandoned_perform h ha with ha | ⟨r, rfl, hd⟩
    · exact .inl ha
    · refine .inr ⟨i, text, r, he, hr, hi, ?_, hd⟩
      unfold Op.ofText? at ho
      split at ho <;> cases ho
      assumption

theorem displaced_event (h : l.Inv) {e : Event} (hd : l.Displaces e id) :
    (l.step e).slots.lookup id = some .abandoned := by
  obtain ⟨i, text, r, rfl, hr, hi, hf, hd⟩ := hd
  have hstep : l.step (.receive i) = l.perform (.answer r) := by
    have hreceive : l.receive i = l.dispatch text := by
      cases i with
      | text frame => cases hi; rfl
      | binary bytes =>
        have hb : Text.decode? bytes = some text := hi
        simp only [receive, hb]
      | _ => cases hi
    simp only [step, hr, ↓reduceIte, hreceive, dispatch_eq, Op.ofText?, hf]
    rfl
  rw [hstep, slots_answer, Calls.endsOf_displaced h.calls hd]
  rfl

/-! ## What tasks are told -/

theorem Move.told (hm : Move lost l m) (hopen : m.isOpen = true)
    (ht : m.results.lookup task = some (.error (.closed reason))) :
    l.results.lookup task = some (.error (.closed reason)) ∨ lost task := by
  cases hm with
  | op o _ => rw [perform_frame] at ht; exact .inl ht
  | finish n r hr =>
    have ht : (Table.insert l.results n r).lookup task = some (.error (.closed reason)) := ht
    by_cases hn : task = n
    · subst hn
      rw [Table.lookup_insert_self] at ht
      exact .inr (hr reason (Option.some.inj ht) hopen)
    · rw [Table.lookup_insert_ne hn] at ht
      exact .inl ht
  | _ => exact .inl ht

theorem Moves.told (hm : Moves lost l m) (hopen : m.isOpen = true)
    (ht : m.results.lookup task = some (.error (.closed reason))) :
    l.results.lookup task = some (.error (.closed reason)) ∨ lost task := by
  induction hm with
  | refl => exact .inl ht
  | tail _ hm ih =>
    rcases hm.told hopen ht with ht | hl
    · exact ih (hm.moves.isOpen hopen) ht
    · exact .inr hl

theorem told_event (h : l.Inv) {e : Event} (hopen : (l.step e).isOpen = true)
    (ht : (l.step e).results.lookup task = some (.error (.closed reason))) :
    l.results.lookup task = some (.error (.closed reason)) ∨ l.Lost task := by
  rcases step_moves h e with hm | ⟨i, text, o, -, -, -, -, hs⟩
  · exact hm.told hopen ht
  · rw [hs, perform_frame] at ht
    exact .inl ht

/-! ## Runs -/

/-- What holds after a run held before, or some event brought it about. -/
theorem run_first (P : Link → Prop) {events : List Event} (hP : P (l.run events)) :
    P l ∨ ∃ before e after, events = before ++ e :: after ∧ ¬ P (l.run before) ∧
      P ((l.run before).step e) := by
  induction events generalizing l with
  | nil => exact .inl hP
  | cons e events ih =>
    rcases ih hP with hP' | ⟨before, e', after, rfl, hno, hyes⟩
    · by_cases hl : P l
      · exact .inl hl
      · exact .inr ⟨[], e, events, rfl, hl, hP'⟩
    · exact .inr ⟨e :: before, e', after, rfl, hno, hyes⟩

theorem abandoned_run (h : l.Inv) {events : List Event}
    (ha : (l.run events).slots.lookup id = some .abandoned) :
    l.slots.lookup id = some .abandoned ∨ ∃ before e after, events = before ++ e :: after ∧
      (l.run before).Displaces e id := by
  rcases run_first (fun l => l.slots.lookup id = some .abandoned) ha with ha |
    ⟨before, e, after, he, hno, hyes⟩
  · exact .inl ha
  · exact .inr ⟨before, e, after, he, (abandoned_event (h.run before) hyes).resolve_left hno⟩

theorem told_run (h : l.Inv) {events : List Event} (hopen : (l.run events).isOpen = true)
    (ht : (l.run events).results.lookup task = some (.error (.closed reason))) :
    l.results.lookup task = some (.error (.closed reason)) ∨
      ∃ before e after, events = before ++ e :: after ∧ (l.run before).Lost task := by
  rcases run_first (fun l => l.isOpen = true ∧
      l.results.lookup task = some (.error (.closed reason))) ⟨hopen, ht⟩ with ⟨-, ht⟩ |
    ⟨before, e, after, he, hno, hopen', ht'⟩
  · exact .inl ht
  · rcases told_event (h.run before) hopen' ht' with ht | hlost
    · exact absurd ⟨isOpen_event (h.run before) hopen', ht⟩ hno
    · exact .inr ⟨before, e, after, he, hlost⟩

/-- A task whose call was displaced is told so when it goes on, if it is not cancelled. -/
theorem told_of_abandoned {x : Exchange} {token : Option Nat} (hopen : l.isOpen = true)
    (ht : l.tasks.lookup task = some (.call x token)) (hx : x.stage = .waiting)
    (hf : l.isFired token = false) (ha : l.slots.lookup x.id = some .abandoned) (w : Wakeup)
    (eager : Bool) : (l.step (.resume task w eager)).results.lookup task =
      some (.error (.closed "connection closed")) := by
  have hwhy : l.closedError = .closed "connection closed" := by
    rw [closedError, isOpen_iff.1 hopen]
    rfl
  have hr : l.resume (.caller task) x (cancellation (l.isFired token) eager) w =
      (l.forget x.id, .over (.error (.closed "connection closed"))) := by
    simp [resume, hx, hf, cancellation, await, endOf?, ha, hwhy]
  simp only [step, ht, resumeTask, hr, proceed, finishCall, finish]
  exact Table.lookup_insert_self

/-- **Who loses a call.** An event other than a call's cancel leaves an outstanding call outstanding
or fills its slot, once, exactly when it is not the answer to another job call that names the job
for which this call waits. A run gives up a slot at such an answer, or at the call's cancel. A call
that waits for a job when its last report comes gets what the report says if no such answer has come
since, and otherwise has lost its slot before. A task is told that an open connection is closed only
when its call was displaced in this way, and then it is told so. -/
theorem calls_are_lost_to_shared_jobs {c : Calls} (hc : c.Reachable) {id : Nat}
    (ho : c.Outstanding id) :
    (∀ e, ((c.step e).1.Outstanding id ∧ endsOf id (c.step e).2 = [] ∨
        ¬ (c.step e).1.Outstanding id ∧ ∃ o, endsOf id (c.step e).2 = [.filled o]) ↔
      e ≠ .cancel id ∧ ¬ c.Displaces e id) ∧
    (∀ es, .abandoned ∈ endsOf id (c.run es).2 ↔
      ∃ before e after, es = before ++ e :: after ∧ (c.run before).1.Outstanding id ∧
        (e = .cancel id ∨ (c.run before).1.Displaces e id)) ∧
    (∀ job between x rest, c.jobs.waiting.lookup job = some id →
      between.findSome? (Calls.Event.decidesJob id job) = none → x.id = job →
      x.state.isTerminal = true →
      (c.Asked job between →
        endsOf id (c.run (between ++ .report x :: rest)).2 = [.abandoned]) ∧
      (¬ c.Asked job between →
        endsOf id (c.run (between ++ .report x :: rest)).2 = [.filled x.outcome])) ∧
    (∀ settings events task reason,
      let start := ofSettings settings
      (start.run events).isOpen = true →
      (start.run events).results.lookup task = some (.error (.closed reason)) →
      ∃ before e between after t x, events = (before ++ e :: between) ++ after ∧
        (start.run (before ++ e :: between)).tasks.lookup task = some t ∧
        t.exchange? = some x ∧ (start.run before).Displaces e x.id) ∧
    ∀ l : Link, l.Reachable →
      (∀ e id, l.Displaces e id → (l.step e).slots.lookup id = some .abandoned) ∧
      ∀ task x token w eager, l.isOpen = true → l.tasks.lookup task = some (.call x token) →
        x.stage = .waiting → l.isFired token = false →
        l.slots.lookup x.id = some .abandoned →
        (l.step (.resume task w eager)).results.lookup task =
          some (.error (.closed "connection closed")) := by
  refine ⟨fun e => Calls.outstanding_step_iff hc.inv ho e, fun es => Calls.abandoned_run hc.inv es,
    ?_, ?_, fun l hl => ⟨fun e id hd => displaced_event hl.inv hd, ?_⟩⟩
  · intro job between x rest hw hd hx ht
    exact Calls.endsOf_report hc.inv hw hd hx ht rest
  · intro settings events task reason start hopen htold
    have hinv : start.Inv := .ofSettings settings
    rcases told_run hinv hopen htold with ht | ⟨whole, e', after, he, t, x, ht, hx, ha⟩
    · cases ht
    · rcases abandoned_run hinv ha with ha | ⟨before, e, between, rfl, hd⟩
      · cases ha
      · exact ⟨before, e, between, e' :: after, t, x, he, ht, hx, hd⟩
  · intro task x token w eager hopen ht hx hf ha
    exact told_of_abandoned hopen ht hx hf ha w eager

/-- Two calls start one job, which then ends. -/
def sharedJob : List Calls.Event :=
  [.register .job, .register .job, .answer (.success 1 (.ofNat 7)),
    .answer (.success 2 (.ofNat 7)),
    .report { id := 7, state := .success, result := .string "done" }]

/-- The first of two calls that start one job is lost without a cancel. -/
theorem first_of_two_calls_is_lost :
    (¬ ∀ c : Calls, c.Reachable → ∀ id, c.Outstanding id → ∀ e, e ≠ .cancel id →
      (c.step e).1.Outstanding id ∨ ∃ o, .filled o ∈ endsOf id (c.step e).2) ∧
    endsOf 1 (Calls.run {} sharedJob).2 = [.abandoned] ∧
    endsOf 2 (Calls.run {} sharedJob).2 = [.filled (.ok (.string "done"))] := by
  refine ⟨fun hall => ?_, rfl, rfl⟩
  have hlost := hall (Calls.run {} (sharedJob.take 3)).1 ⟨_, rfl⟩ 1 (.inr (by decide))
    (.answer (.success 2 (.ofNat 7))) (by simp)
  rcases hlost with (hp | hw) | ⟨o, ho⟩
  · exact absurd hp (by decide)
  · exact absurd hw (by decide)
  · have hends : endsOf 1 ((Calls.run {} (sharedJob.take 3)).1.step
        (.answer (.success 2 (.ofNat 7)))).2 = [.abandoned] := rfl
    rw [hends] at ho
    simp at ho

theorem second_of_two_calls_gets_the_report :
    (Calls.run {} (sharedJob.take 4)).1.Reachable ∧
      (Calls.run {} (sharedJob.take 4)).1.Outstanding 2 ∧
      endsOf 2 ((Calls.run {} (sharedJob.take 4)).1.run (sharedJob.drop 4)).2 =
        [.filled (.ok (.string "done"))] := by
  have ho : (Calls.run {} (sharedJob.take 4)).1.Outstanding 2 := .inr (by decide)
  have h := (calls_are_lost_to_shared_jobs ⟨_, rfl⟩ ho).2.2.1 7 []
    { id := 7, state := .success, result := .string "done" } [] (by decide) rfl rfl rfl
  refine ⟨⟨_, rfl⟩, ho, h.2 ?_⟩
  rintro ⟨before, r, after, he, -⟩
  simp at he

end ServerLink.Link
