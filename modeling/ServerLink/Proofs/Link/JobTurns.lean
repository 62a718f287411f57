import ServerLink.Proofs.Link.JobCalls

/-!
# Turns and job reports

Every event is, for job reports, the turn of a task that starts a job (`JobTurn`), or leaves the
question for them as it is (`Streamed.turn`). So whoever calls a method that starts a job knows that
the server sends job reports (`Streamed`); and what an event writes is the request of the call that
the actor has in hand then (`Streamed.writes`).
-/

namespace ServerLink.Link

/-- What becomes of a task that is to start a job, by an event that is its turn. -/
inductive JobTurn (l : Link) (e : Event) (task : Nat) (method : String) (params : Json)
    (token : Option Nat) (m : Link) : Prop
  | ensures (ht : ∀ t, l.tasks.lookup task = some t → t = .awaitJobs method params token)
      (hm : Ensured l task method params token m)
  /-- It goes on waiting for another's question, or gives up. -/
  | waits (ht : l.tasks.lookup task = some (.awaitJobs method params token))
      (hm : Leaves task (· = .awaitJobs method params token) l m)
  | attempts {x : Exchange} (ht : l.tasks.lookup task = some (.askJobs x method params token))
      (hkind : x.kind = .plain) (hframe : (question x.id).frame = .ok x.frame)
      (hm : Attempted l e task x method params token m)
  | calls {x : Exchange} (ht : l.tasks.lookup task = some (.call x token)) (hkind : x.kind = .job)
      (hm : Leaves task (Task.CallsJob method params token) l m)

/-- What holds at any time about job reports: whoever calls a method that starts a job knows that
the server sends them. -/
structure Streamed (l : Link) : Prop where
  tasks : ∀ task t, l.tasks.lookup task = some t →
    t.IsPlain ∨ ∃ method params token, t.Starts method params token
  live : ∀ task x token, l.tasks.lookup task = some (.call x token) → x.kind = .job →
    l.jobStream = .live
  probe : ∀ x, l.probe = .asking x → x.kind = .plain

variable {l m : Link} {a : Actor} {x : Exchange} {t : Task} {task : Nat} {method : String}
  {params : Json} {token : Option Nat} {P : Task → Prop} {e : Event}

/-! ## Tasks -/

/-- A task that nobody lets go on stays as it is. -/
theorem Leaves.same (ht : l.tasks.lookup task = some t) (hp : P t) : Leaves task P l l := by
  refine ⟨.inl rfl, rfl, fun u hu => ?_⟩
  cases ht.symm.trans hu
  exact hp

theorem isUsed_of_lookup (ht : l.tasks.lookup task = some t) : l.isUsed task = true := by
  simp [isUsed, ht]

/-- **A turn of a task that is to start a job.** -/
theorem job_turn (hi : l.Inv) (ht : l.tasks.lookup task = some t)
    (hs : t.Starts method params token) (ha : e.actor? = some (.caller task)) :
    JobTurn l e task method params token (l.step e) := by
  have hsame : l.step e = l → JobTurn l e task method params token (l.step e) := by
    intro he
    rw [he]
    cases hs with
    | awaits => exact .waits ht (.same ht rfl)
    | asks hkind hframe => exact .attempts ht hkind hframe (.going ht rfl rfl (.inl rfl) rfl rfl)
    | calls hjob =>
      obtain ⟨x, rfl, hkind, hframe⟩ := hjob
      exact .calls ht hkind (.same ht ⟨x, rfl, hkind, hframe⟩)
  cases e with
  | start n o =>
    cases ha
    exact hsame (by simp only [step, isUsed_of_lookup ht, ↓reduceIte])
  | handshake n c =>
    cases ha
    exact hsame (by simp only [step, isUsed_of_lookup ht, ↓reduceIte])
  | resume n w eager =>
    cases ha
    simp only [step, ht]
    cases hs with
    | awaits =>
      exact .ensures (fun u hu => (Option.some.inj (ht.symm.trans hu)).symm) (ensureJobs_ensured hi)
    | asks hkind hframe => exact .attempts ht hkind hframe (.ofResume hi w)
    | calls hjob =>
      obtain ⟨x, rfl, hkind, hframe⟩ := hjob
      refine .calls ht hkind (.resumeCall (fun y hy => ⟨y, rfl, ?_⟩) w eager)
      rw [hy]
      exact ⟨hkind, hframe⟩
  | drop n =>
    cases ha
    simp only [step, ht]
    cases hs with
    | awaits => exact .waits ht (.dropTask (by simp))
    | asks hkind hframe => exact .attempts ht hkind hframe .ofDrop
    | calls hjob =>
      obtain ⟨x, rfl, hkind, -⟩ := hjob
      exact .calls ht hkind (.dropTask (by simp))
  | receive i => cases i <;> cases ha
  | _ => cases ha

/-- A turn of a task that has nothing to do with jobs. -/
theorem plain_turn (ht : l.tasks.lookup task = some t) (hp : t.IsPlain)
    (ha : e.actor? = some (.caller task)) : Leaves task Task.IsPlain l (l.step e) := by
  cases e with
  | start n o =>
    cases ha
    simp only [step, isUsed_of_lookup ht, ↓reduceIte]
    exact .same ht hp
  | handshake n c =>
    cases ha
    simp only [step, isUsed_of_lookup ht, ↓reduceIte]
    exact .same ht hp
  | resume n w eager =>
    cases ha
    simp only [step, ht]
    exact .resumeTask ht hp w eager
  | drop n =>
    cases ha
    simp only [step, ht]
    refine .dropTask ?_
    rintro x method params token rfl
    exact hp
  | receive i => cases i <;> cases ha
  | _ => cases ha

/-- The start of a task. -/
theorem start_turn_of_none (hi : l.Inv) (ht : l.tasks.lookup task = none)
    (ha : e.actor? = some (.caller task)) : Leaves task Task.IsPlain l (l.step e) ∨
      ∃ method params token, JobTurn l e task method params token (l.step e) := by
  have hnone : ∀ {P : Task → Prop} t, l.tasks.lookup task = some t → P t := by simp [ht]
  have hsame : l.step e = l → Leaves task Task.IsPlain l (l.step e) := fun he => by
    rw [he]
    exact ⟨.inl rfl, rfl, hnone⟩
  cases e with
  | start n o =>
    cases ha
    by_cases hu : l.isUsed task = true
    · exact .inl (hsame (by simp only [step, hu, ↓reduceIte]))
    · simp only [step, hu, Bool.false_eq_true, ↓reduceIte]
      cases o with
      | callAndWait method params token =>
        exact .inr ⟨method, params, token, .ensures hnone (ensureJobs_ensured hi)⟩
      | _ => exact .inl (.startTask (by simp) l task)
  | handshake n c =>
    cases ha
    left
    by_cases hu : l.isUsed task = true
    · exact hsame (by simp only [step, hu, ↓reduceIte])
    · simp only [step, hu, Bool.false_eq_true, ↓reduceIte]
      exact .startHandshake l c
  | resume n w eager =>
    cases ha
    exact .inl (hsame (by simp only [step, ht]))
  | drop n =>
    cases ha
    exact .inl (hsame (by simp only [step, ht]))
  | receive i => cases i <;> cases ha
  | _ => cases ha

/-- **A turn of a task**, as far as job reports are concerned. -/
theorem Streamed.turn (hl : l.Streamed) (hi : l.Inv) (ha : e.actor? = some (.caller task)) :
    Leaves task Task.IsPlain l (l.step e) ∨
      ∃ method params token, JobTurn l e task method params token (l.step e) := by
  cases ht : l.tasks.lookup task with
  | none => exact start_turn_of_none hi ht ha
  | some t =>
    rcases hl.tasks task t ht with hp | ⟨method, params, token, hs⟩
    · exact .inl (plain_turn ht hp ha)
    · exact .inr ⟨method, params, token, job_turn hi ht hs ha⟩

/-- A task that is to start a job keeps to it. -/
theorem JobTurn.starts (h : JobTurn l e task method params token m)
    (ht : m.tasks.lookup task = some t) : t.Starts method params token := by
  cases h with
  | waits _ hm =>
    rw [hm.ends t ht]
    exact .awaits
  | calls _ _ hm => exact .calls (hm.ends t ht)
  | ensures _ hm =>
    cases hm with
    | calls _ hm => exact .calls (hm.ends t ht)
    | awaits _ hm =>
      rw [hm] at ht
      cases Table.lookup_insert_self.symm.trans ht
      exact .awaits
    | asks _ _ hkind hframe ht' =>
      cases ht'.symm.trans ht
      exact .asks hkind hframe
    | denied _ _ hm =>
      rw [hm] at ht
      cases Table.lookup_erase_self.symm.trans ht
  | attempts _ hkind hframe hm =>
    cases hm with
    | going ht' hy =>
      cases ht'.symm.trans ht
      rw [hy]
      exact .asks hkind hframe
    | accepted _ _ _ _ hjob => exact .calls (hjob t ht)
    | refused _ _ hnone | failed hnone | unwritten hnone | dropped _ hnone =>
      cases hnone.symm.trans ht

theorem JobTurn.written (h : JobTurn l e task method params token m) :
    Written (.caller task) l m := by
  cases h with
  | waits _ hm => exact hm.written
  | calls _ _ hm => exact hm.written
  | ensures _ hm =>
    cases hm with
    | calls _ hm => exact hm.written
    | awaits _ hm | denied _ _ hm =>
      rw [hm]
      exact .inl rfl
    | asks _ _ _ _ _ _ hw => exact hw
  | attempts _ _ _ hm =>
    cases hm with
    | going _ _ _ hw | accepted _ _ _ hw => exact hw
    | refused _ _ _ _ _ hw | failed _ _ _ hw | unwritten _ _ _ hw | dropped _ _ _ _ hw =>
      exact .inl hw

/-- Whoever calls a method that starts a job, has been told that the server sends job reports. -/
theorem JobTurn.live (h : JobTurn l e task method params token m)
    (hl : ∀ x token, l.tasks.lookup task = some (.call x token) → x.kind = .job →
      l.jobStream = .live)
    {token' : Option Nat} (ht : m.tasks.lookup task = some (.call x token')) :
    m.jobStream = .live := by
  cases h with
  | waits _ hm => cases hm.ends _ ht
  | calls ht hkind hm => exact hm.stream.trans (hl _ _ ht hkind)
  | ensures _ hm =>
    cases hm with
    | calls hj hm => exact hm.stream.trans hj
    | awaits _ hm =>
      rw [hm] at ht
      cases Table.lookup_insert_self.symm.trans ht
    | asks _ _ _ _ ht' => cases ht'.symm.trans ht
    | denied _ _ hm =>
      rw [hm] at ht
      cases Table.lookup_erase_self.symm.trans ht
  | attempts _ _ _ hm =>
    cases hm with
    | going ht' => cases ht'.symm.trans ht
    | accepted _ _ hj => exact hj
    | refused _ _ hnone | failed hnone | unwritten hnone | dropped _ hnone =>
      cases hnone.symm.trans ht

/-! ## The probe and the reader -/

/-- What the probe does about job reports, which is nothing, and what it writes. -/
structure Probes (l m : Link) : Prop where
  written : Written .probe l m
  stream : m.jobStream = l.jobStream
  plain : ∀ x, m.probe = .asking x → x.kind = .plain

namespace Probes

theorem set (hs : m.sent = l.sent) (hj : m.jobStream = l.jobStream) {s : Probe.State}
    (hp : ∀ x, s ≠ .asking x) : Probes l { m with probe := s } :=
  ⟨.inl hs, hj, fun x hx => absurd hx (hp x)⟩

theorem continueProbe (l : Link) (r : Release) : Probes l (continueProbe (l.release .probe r)) := by
  obtain ⟨hs, hj⟩ := release_steady l .probe r
  generalize l.release .probe r = p at hs hj ⊢
  obtain ⟨m, stage⟩ := p
  cases stage <;> exact .set hs hj (by simp)

theorem probeFailed (l : Link) (failure : String) : Probes l (l.probeFailed failure) := by
  unfold Link.probeFailed
  split
  · exact .set rfl rfl (by simp)
  · obtain ⟨hs, hj⟩ := teardown_steady l (.closed ("liveness probe failed: " ++ failure))
    obtain ⟨hw, hj', hp⟩ := continueProbe
      ((l.teardown (.closed ("liveness probe failed: " ++ failure))).joinLine .probe) .queued
    exact ⟨by rw [Written, ← hs]; exact hw, hj'.trans hj, hp⟩

theorem probing {p : Link × Exchange.Progress} (hp : Steady l p)
    (hx : ∀ x, p.2 = .going x → x.kind = .plain) : Probes l (continueProbing p) := by
  obtain ⟨m, r⟩ := p
  rcases r with x | o
  · refine ⟨(hp.going x rfl).imp_right fun ⟨hstage, hsent⟩ => ⟨x, rfl, hstage, hsent⟩, hp.stream,
      ?_⟩
    rintro _ ⟨⟩
    exact hx x rfl
  · have hs := hp.ended o rfl
    have hfailed : ∀ failure, Probes l (m.probeFailed failure) := fun failure => by
      obtain ⟨hw, hj, hplain⟩ := probeFailed m failure
      exact ⟨by rw [Written, ← hs]; exact hw, hj.trans hp.stream, hplain⟩
    show Probes l (m.probeAnswered o)
    unfold probeAnswered
    split
    · split
      · exact .set hs hp.stream (by simp)
      · exact hfailed _
    · exact hfailed _

end Probes

theorem Streamed.probe_turn (hl : l.Streamed) (ha : e.actor? = some .probe) :
    Probes l (l.step e) := by
  have hsame : Probes l l := ⟨.inl rfl, rfl, hl.probe⟩
  cases e with
  | startProbe =>
    dsimp only [step]
    split
    · exact .set rfl rfl (by simp)
    · exact hsame
  | tick =>
    dsimp only [step]
    split
    · exact .probing (begin_steady l _ _ _ _) fun x hx => (begin_going hx).2.1
    · exact hsame
  | resumeProbe w eager =>
    dsimp only [step]
    split
    · exact hsame
    · exact hsame
    · split
      · exact .set rfl rfl (by simp)
      · exact hsame
    · rename_i x hp
      refine .probing (resume_steady l _ _ _ w) fun y hy => ?_
      rw [resume_going hy]
      exact hl.probe x hp
    · exact .continueProbe l .queued
    · split
      · exact hsame
      · exact hsame
      all_goals exact .set rfl rfl (by simp)
  | probeLate =>
    dsimp only [step]
    split
    · rename_i x seconds _ _
      obtain ⟨hw, hj, hp⟩ :=
        Probes.probeFailed (l.abandon .probe x) ("no reply within " ++ toString seconds ++ "s")
      exact ⟨hw, hj, hp⟩
    · exact hsame
  | receive i => cases i <;> cases ha
  | _ => cases ha

theorem stopReader_steady (l : Link) :
    l.stopReader.sent = l.sent ∧ l.stopReader.jobStream = l.jobStream := by
  obtain ⟨hs, hj⟩ := release_steady (l.joinLine .reader) .reader .queued
  unfold stopReader
  generalize (l.joinLine .reader).release .reader .queued = p at hs hj ⊢
  obtain ⟨m, stage⟩ := p
  cases stage <;> exact ⟨hs, hj⟩

/-- The reader writes no request, and asks for no job reports. -/
theorem reader_turn_steady (ha : e.actor? = some .reader) :
    (l.step e).sent = l.sent ∧ (l.step e).jobStream = l.jobStream := by
  have hending : ∀ reason, (l.teardown reason).stopReader.sent = l.sent ∧
      (l.teardown reason).stopReader.jobStream = l.jobStream := fun reason => by
    obtain ⟨hs, hj⟩ := teardown_steady l reason
    obtain ⟨hs', hj'⟩ := stopReader_steady (l.teardown reason)
    exact ⟨hs'.trans hs, hj'.trans hj⟩
  cases e with
  | receive i =>
    dsimp only [step]
    split
    · cases i with
      | goodbye _ | failed _ | ended => exact hending _
      | text _ | binary _ | control => cases ha
    · exact ⟨rfl, rfl⟩
  | stopReading =>
    dsimp only [step]
    split
    · exact stopReader_steady l
    · exact ⟨rfl, rfl⟩
  | resumeReader w =>
    dsimp only [step]
    split
    · exact ⟨rfl, rfl⟩
    · exact ⟨rfl, rfl⟩
    · obtain ⟨hs, hj⟩ := release_steady l .reader .queued
      generalize l.release .reader .queued = p at hs hj ⊢
      obtain ⟨m, stage⟩ := p
      cases stage <;> exact ⟨hs, hj⟩
    · split <;> exact ⟨rfl, rfl⟩
  | _ => cases ha

/-- What is nobody's turn writes nothing, and asks for no job reports. -/
theorem shared_steady (ha : e.actor? = none) :
    (l.step e).sent = l.sent ∧ (l.step e).jobStream = l.jobStream := by
  rcases step_shared (l := l) ha with ⟨o, -, hs⟩ | ⟨fired, hs⟩ <;> rw [hs]
  · rw [perform_frame]
    exact ⟨rfl, rfl⟩
  · exact ⟨rfl, rfl⟩

/-! ## The invariant -/

/-- Once the server sends job reports, nobody asks for them again. -/
theorem live_event (hl : l.Tidy) (hj : l.jobStream = .live) (e : Event) :
    (l.step e).jobStream = .live := by
  cases ha : e.actor? with
  | none => exact (shared_steady ha).2.trans hj
  | some a =>
    have hasks : (l.hand a).asks = false := by
      cases hasks : (l.hand a).asks with
      | false => rfl
      | true =>
        obtain ⟨task, -, hasking⟩ := (hl.asked a).1 hasks
        rw [hj] at hasking
        cases hasking
    refine (Deeds.keep (P := fun m h => m.jobStream = .live ∧ h.asks = false) (step_turn ha)
      ⟨hj, hasks⟩ ?_).1
    rintro m h n h' ⟨hm, hh⟩ hd
    cases hd with
    | quiet hq => exact ⟨hq.jobStream.trans hm, hh⟩
    | teardown reason => exact ⟨(teardown_steady m reason).2.trans hm, hh⟩
    | ask _ hu => rw [hm] at hu; cases hu
    | learn _ ha => rw [hh] at ha; cases ha
    | register | forget | join | leave | subscribe | discard | handOver => exact ⟨hm, hh⟩

/-- Nobody but a task asks for job reports, or starts a job. -/
theorem Streamed.event (hl : l.Streamed) (hi : l.Inv) (htidy : l.Tidy) (e : Event) :
    (l.step e).Streamed := by
  refine ⟨fun task t ht => ?_, fun task x token ht hkind => ?_, fun x hx => ?_⟩
  · by_cases ha : e.actor? = some (.caller task)
    · rcases hl.turn hi ha with hm | ⟨method, params, token, hm⟩
      · exact .inl (hm.ends t ht)
      · exact .inr ⟨method, params, token, hm.starts ht⟩
    · exact hl.tasks task t ((step_others ha).1.symm.trans ht)
  · by_cases ha : e.actor? = some (.caller task)
    · rcases hl.turn hi ha with hm | ⟨method, params, token, hm⟩
      · cases (hm.ends _ ht : x.kind = .plain).symm.trans hkind
      · exact hm.live (hl.live task) ht
    · exact live_event htidy (hl.live task x token ((step_others ha).1.symm.trans ht) hkind) e
  · by_cases ha : e.actor? = some .probe
    · exact (hl.probe_turn ha).plain x hx
    · have hplace : (l.step e).probe = l.probe := step_others (a := .probe) ha
      exact hl.probe x (hplace ▸ hx)

theorem Streamed.ofSettings (settings : Settings) : (Link.ofSettings settings).Streamed :=
  ⟨by rintro _ _ ⟨⟩, by rintro _ _ _ ⟨⟩, by rintro _ ⟨⟩⟩

theorem Reachable.streamed (hl : l.Reachable) : l.Streamed := by
  obtain ⟨settings, events, rfl⟩ := hl
  suffices ∀ l : Link, l.Streamed → l.Inv → l.Tidy → (l.run events).Streamed from
    this _ (.ofSettings settings) (.ofSettings settings) (.ofSettings settings)
  induction events with
  | nil => exact fun l hl _ _ => hl
  | cons e events ih =>
    exact fun l hl hi ht => ih (l.step e) (hl.event hi ht e) (hi.event e) (ht.event e)

/-- **What an event writes** is the request of the call that the actor has in hand then. -/
theorem Streamed.writes (hl : l.Streamed) (hi : l.Inv) (e : Event) :
    (l.step e).sent = l.sent ∨ ∃ a, e.actor? = some a ∧ Written a l (l.step e) := by
  cases ha : e.actor? with
  | none => exact .inl (shared_steady ha).1
  | some a =>
    cases a with
    | reader => exact .inl (reader_turn_steady ha).1
    | probe => exact .inr ⟨_, rfl, (hl.probe_turn ha).written⟩
    | caller task =>
      refine .inr ⟨_, rfl, ?_⟩
      rcases hl.turn hi ha with hm | ⟨_, _, _, hm⟩
      · exact hm.written
      · exact hm.written

end ServerLink.Link
