import ServerLink.Proofs.Link.Resuming

/-!
# Operations on a connection that has ended

Each actor ends a connection for reasons of its own (`cause_event`). Whatever is asked of the
connection afterwards fails with the reason, at once or, if it has to wait until another task knows
whether the server sends job reports, when that is known (`Denied`, `denied_comes_to_know`).
-/

namespace ServerLink.Link

/-- A task that fails with this reason: it still waits to make its call, or it has been told. -/
inductive Denied (l : Link) (task : Nat) (reason : LinkError) : Prop
  | waiting {method : String} {params : Json} {token : Option Nat}
      (ht : l.tasks.lookup task = some (.awaitJobs method params token))
      (hr : l.results.lookup task = none)
  | told (ht : l.tasks.lookup task = none) (hr : l.results.lookup task = some (.error reason))

variable {l m : Link} {a : Actor} {h h' : Hand} {e : Event} {task : Nat} {reason : LinkError}
  {method : String} {params : Json} {token : Option Nat}

/-! ## Why a connection ends -/

theorem Deed.cause (hd : Deed a (l, h) (m, h')) (hm : m.calls.closed = some reason) :
    l.calls.closed = some reason ∨ Cause a reason := by
  cases hd with
  | quiet hq =>
    rw [hq.calls] at hm
    exact .inl hm
  | register kind _ _ =>
    rw [closed_perform] at hm
    exact .inl hm
  | teardown why hw =>
    rw [closed_teardown] at hm
    cases hc : l.calls.closed with
    | some first =>
      rw [hc] at hm
      exact .inl hm
    | none =>
      rw [hc] at hm
      cases hm
      exact .inr hw
  | forget | join | leave | subscribe | discard | handOver | ask | learn => exact .inl hm

theorem Deeds.cause (hd : Deeds a (l, h) (m, h')) (hm : m.calls.closed = some reason) :
    l.calls.closed = some reason ∨ Cause a reason := by
  refine hd.keep (P := fun m _ => m.calls.closed = some reason →
    l.calls.closed = some reason ∨ Cause a reason) .inl ?_ hm
  intro m h n h' ih hd hn
  rcases hd.cause hn with hc | hr
  · exact ih hc
  · exact .inr hr

/-- Whoever ends the connection does so for a reason of its own. -/
theorem cause_event (hend : (l.step e).calls.closed = some reason) :
    l.calls.closed = some reason ∨ (∃ a, Cause a reason) ∨ e = .teardown reason := by
  cases ha : e.actor? with
  | some a =>
    rcases Deeds.cause (step_turn ha) hend with hc | hr
    · exact .inl hc
    · exact .inr (.inl ⟨a, hr⟩)
  | none =>
    rcases step_shared (l := l) ha with ⟨o, ho, hs⟩ | ⟨fired, hs⟩ <;> rw [hs] at hend
    · cases ho with
      | teardown why =>
        rw [closed_perform] at hend
        cases hc : l.calls.closed with
        | some first =>
          rw [hc] at hend
          exact .inl hend
        | none =>
          rw [hc] at hend
          cases hend
          exact .inr (.inr rfl)
      | act s act => exact .inl hend
      | frame _ _ ho =>
        rw [closed_of_text ho] at hend
        exact .inl hend
    · exact .inl hend

/-! ## What is refused at once -/

section
variable (hc : l.calls.closed = some reason)
include hc

theorem startTask_call (task : Nat) (method : String) (params : Json) (token : Option Nat) :
    l.startTask task (.call method params token) = l.finish task (.error reason) := by
  simp only [startTask, begin_of_closed l hc]
  rfl

theorem startJob_of_closed : l.startJob task method params token =
    l.finish task (.error reason) := by
  simp only [startJob, begin_of_closed l hc]
  rfl

theorem startSubscribe_of_closed (hi : l.Inv) (collection : String) (filter : Json) :
    l.startSubscribe task collection filter =
      l.finish task (.error (.closed "subscriptions are closed")) := by
  have hf : l.fanout.closed = true := by rw [hi.shut, hc]; rfl
  simp only [startSubscribe, Fanout.register_closed hf]

end

/-! ## What has to wait -/

theorem Denied.finish : (l.finish task (.error reason)).Denied task reason :=
  .told Table.lookup_erase_self Table.lookup_insert_self

section
variable (hc : l.calls.closed = some reason)
include hc

/-- A call that would wait for a job is refused, unless another task is asking for job reports. -/
theorem ensureJobs_of_closed : l.ensureJobs task method params token =
      l.setTask task (.awaitJobs method params token) ∧ (∃ other, l.jobStream = .asking other) ∨
    ∃ s, l.ensureJobs task method params token =
      ({ l with jobStream := s }).finish task (.error reason) := by
  unfold ensureJobs
  cases hj : l.jobStream with
  | live =>
    have hsame : { l with jobStream := .live } = l := by rw [← hj]
    exact .inr ⟨.live, by rw [hsame]; exact startJob_of_closed hc⟩
  | asking other => exact .inl ⟨rfl, other, rfl⟩
  | unasked =>
    refine .inr ⟨.unasked, ?_⟩
    dsimp only
    rw [begin_of_closed { l with jobStream := .asking task } hc]
    rfl

theorem Denied.ensureJobs (hr : l.results.lookup task = none) :
    (l.ensureJobs task method params token).Denied task reason := by
  rcases ensureJobs_of_closed hc with ⟨hs, -⟩ | ⟨s, hs⟩ <;> rw [hs]
  · exact .waiting Table.lookup_insert_self hr
  · exact .finish

/-- Who is denied stays so, unless it gives up. -/
theorem Denied.event (hd : l.Denied task reason) (he : e ≠ .drop task) :
    (l.step e).Denied task reason := by
  have hplace : SamePlace l (l.step e) (.caller task) → (l.step e).Denied task reason := by
    rintro ⟨ht, hr⟩
    cases hd with
    | waiting ht' hr' => exact .waiting (ht.trans ht') (hr.trans hr')
    | told ht' hr' => exact .told (ht.trans ht') (hr.trans hr')
  by_cases ha : e.actor? = some (.caller task)
  · have hused : l.isUsed task = true := by
      cases hd with
      | waiting ht hr => simp [isUsed, ht]
      | told ht hr => simp [isUsed, hr]
    have hsame : l.step e = l → (l.step e).Denied task reason := fun hs => hs.symm ▸ hd
    cases e with
    | start n o =>
      cases ha
      exact hsame (by simp only [step, hused, ↓reduceIte])
    | handshake n c =>
      cases ha
      exact hsame (by simp only [step, hused, ↓reduceIte])
    | resume n w eager =>
      cases ha
      cases hd with
      | waiting ht hr =>
        simp only [step, ht, resumeTask]
        exact .ensureJobs hc hr
      | told ht hr => exact hsame (by simp only [step, ht])
    | drop n =>
      cases ha
      exact absurd rfl he
    | receive i => cases i <;> cases ha
    | _ => cases ha
  · cases hactor : e.actor? with
    | some b => exact hplace (Deeds.others (step_turn hactor) fun hab => ha (by rw [hactor, hab]))
    | none =>
      rcases step_shared (l := l) hactor with ⟨o, -, hs⟩ | ⟨fired, hs⟩
      · exact hplace (hs ▸ samePlace_perform l o _)
      · exact hplace (by rw [hs]; exact ⟨rfl, rfl⟩)

end

section
variable (hi : l.Inv) (hc : l.calls.closed = some reason) (hd : l.Denied task reason)
include hi hc hd

theorem Denied.run {events : List Event} (he : .drop task ∉ events) :
    (l.run events).Denied task reason := by
  induction events generalizing l with
  | nil => exact hd
  | cons e events ih =>
    rw [List.mem_cons, not_or] at he
    exact ih (hi.event e) (closed_event hi hc e) (hd.event hc (Ne.symm he.1)) he.2

theorem Denied.patient {events : List Event} (hp : Patient events) :
    (l.run events).Denied task reason := by
  refine hd.run hi hc fun hm => ?_
  obtain ⟨b, hb⟩ := hp _ hm
  cases b <;> cases hb

end

/-! ## What waits comes to know -/

theorem jobStream_jobsAnswered (hc : l.calls.closed = some reason) (o : Outcome) (other : Nat) :
    (jobsAnswered task method params token l o).jobStream ≠ .asking other := by
  unfold jobsAnswered
  split
  · simp [Link.finish]
  · split
    · rw [startJob_of_closed (l := { l with jobStream := .live }) hc]
      simp [Link.finish]
    · simp [Link.finish]

/-- After the end of the connection, the task that has asked for job reports comes to its answer. -/
theorem question_comes_to_end (hi : l.Inv) (hl : l.Tidy) (hc : l.calls.closed = some reason) :
    ∃ events, Patient events ∧ ∀ other, (l.run events).jobStream ≠ .asking other := by
  by_cases hj : ∃ asker, l.jobStream = .asking asker
  · obtain ⟨asker, hj⟩ := hj
    -- the task that has asked makes the call that asks
    have hasks : ∀ m : Link, (m.hand (.caller asker)).asks = true →
        ∃ x method params token, m.tasks.lookup asker = some (.askJobs x method params token) := by
      intro m hm
      cases ht : m.tasks.lookup asker with
      | none =>
        rw [hand_of_lookup_none ht] at hm
        cases hm
      | some t =>
        rw [hand_of_lookup ht] at hm
        cases t with
        | askJobs x method params token => exact ⟨x, method, params, token, rfl⟩
        | close stage => cases stage <;> cases hm
        | _ => cases hm
    have hask : (l.hand (.caller asker)).asks = true := (hl.asked _).2 ⟨asker, rfl, hj⟩
    obtain ⟨x, _, _, _, ht⟩ := hasks l hask
    have hx : l.callOf (.caller asker) = some x := by simp [callOf, ht, Task.exchange?]
    obtain ⟨events, y, hpatient, hy, -, hhand, hover⟩ := call_comes_to_end hi hl hc hx
    obtain ⟨z, method, params, token, ht'⟩ := hasks (l.run events) (by rw [hhand]; exact hask)
    refine ⟨events ++ [.resumeOf (.caller asker) .written false], fun e he => ?_, ?_⟩
    · rcases List.mem_append.1 he with he | he
      · exact hpatient e he
      · exact ⟨.caller asker, List.mem_singleton.1 he⟩
    · obtain ⟨m, o, hr⟩ := hover ((l.run events).asked (.caller asker) false)
      have hm : m.calls.closed = some reason := by
        have hmoves := (resume_moves (l.run events) (.caller asker) y
          ((l.run events).asked (.caller asker) false) .written :
            Moves (fun _ => True) _ _).closed (closed_run hi hc events)
        rwa [hr] at hmoves
      have hstep := step_resume hy .written false
      rw [hr] at hstep
      simp only [goOn, ht', Option.map_some, Option.getD_some, goOnWith, proceed] at hstep
      intro other
      rw [run_append]
      show ((l.run events).step (.resumeOf (.caller asker) .written false)).jobStream ≠ _
      rw [hstep]
      exact jobStream_jobsAnswered hm o other
  · exact ⟨[], (fun _ he => by cases he), fun other ho => hj ⟨other, ho⟩⟩

/-- Who waits is told the reason when it goes on, unless another task is asking for job reports. -/
theorem Denied.told_by_resume (hc : l.calls.closed = some reason) (hd : l.Denied task reason)
    (hj : ∀ other, l.jobStream ≠ .asking other) (w : Wakeup) (eager : Bool) :
    (l.step (.resume task w eager)).results.lookup task = some (.error reason) := by
  cases hd with
  | told ht hr => simpa only [step, ht] using hr
  | waiting ht hr =>
    simp only [step, ht, resumeTask]
    rcases ensureJobs_of_closed hc with ⟨-, other, ho⟩ | ⟨s, hs⟩
    · exact absurd ho (hj other)
    · rw [hs]
      exact Table.lookup_insert_self

/-- **Who is denied comes to know why**, if everybody goes on. -/
theorem denied_comes_to_know (hi : l.Inv) (hl : l.Tidy) (hc : l.calls.closed = some reason)
    (hd : l.Denied task reason) : ∃ events, Patient events ∧
      (l.run events).results.lookup task = some (.error reason) := by
  obtain ⟨events, hpatient, hj⟩ := question_comes_to_end hi hl hc
  refine ⟨events ++ [.resumeOf (.caller task) .written false], fun e he => ?_, ?_⟩
  · rcases List.mem_append.1 he with he | he
    · exact hpatient e he
    · exact ⟨.caller task, List.mem_singleton.1 he⟩
  · rw [run_append]
    exact (hd.patient hi hc hpatient).told_by_resume (closed_run hi hc events) hj .written false

end ServerLink.Link
