import ServerLink.Proofs.Link.Answers
import ServerLink.Proofs.Link.JobTurns

/-!
# Jobs on a live stream of reports

A request that starts a job is written only after the server has accepted to send job reports. Once
it has accepted, and the task that has asked has seen it, nobody asks again. A question that fails
is the failure of the task that has asked, and of no other, and the next task asks again
(`jobs_start_on_live_stream`). But a question whose write fails ends the connection for everybody,
and one whose task is given up before it has seen the answer is asked again
(`questions_unwritten_or_unseen`).
-/

namespace ServerLink.Link

/-- By this event a task asks for job reports that did not ask before. -/
def Issues (l : Link) (e : Event) : Prop :=
  ∃ task x method params token, (l.step e).tasks.lookup task =
    some (.askJobs x method params token) ∧ l.calls.nextId ≤ x.id

/-- By this event the server accepts the question whose answer a task waits for, by the call with
this id. -/
structure Accepts (l : Link) (e : Event) (task id : Nat) : Prop where
  asks : ∃ x method params token, l.tasks.lookup task = some (.askJobs x method params token) ∧
    x.id = id ∧ (question id).frame = .ok x.frame
  pending : l.calls.pending.lookup id = some .plain
  answer : ∃ r, l.dispatched? e = some (.answer r) ∧ r.id = id ∧ r.error = none ∧
    (r.result = .bool true ∨ ∃ name, r.result = .string name ∧ name ≠ "")

/-- By one of these events the server has accepted a question. -/
def Accepted (l : Link) (es : List Event) : Prop :=
  ∃ before e after task id, es = before ++ e :: after ∧ (l.run before).Accepts e task id

/-- The server has accepted the question of a task, by the call with this id, and the task has not
seen it yet. -/
def Acknowledged (l : Link) (task id : Nat) : Prop :=
  ∃ x method params token v, l.tasks.lookup task = some (.askJobs x method params token) ∧
    x.id = id ∧ l.slots.lookup id = some (.filled (.ok v)) ∧ acknowledges v = true

/-- Nobody will ask for job reports any more: the server sends them, or the connection has
ended. -/
def Decided (l : Link) : Prop :=
  l.jobStream = .live ∨ l.jobStream = .unasked ∧ l.isOpen = false

/-- By this event a task makes sure that the server sends job reports: it starts, or goes on after it
has waited for another's question. -/
inductive Ensures (l : Link) : Event → Nat → String → Json → Option Nat → Prop
  | start {task : Nat} {method : String} {params : Json} {token : Option Nat}
      (hu : l.isUsed task = false) :
      Ensures l (.start task (.callAndWait method params token)) task method params token
  | resume {task : Nat} {method : String} {params : Json} {token : Option Nat}
      (ht : l.tasks.lookup task = some (.awaitJobs method params token)) (w : Wakeup)
      (eager : Bool) : Ensures l (.resume task w eager) task method params token

/-- What can become of the question for job reports at once. -/
inductive Streams (l m : Link) : Prop
  | same (hm : m.jobStream = l.jobStream)
  | asked {task : Nat} (hl : l.jobStream = .unasked) (hm : m.jobStream = .asking task)
      (hc : m.calls.closed = none)
  | accepted {task id : Nat} (hl : l.Acknowledged task id) (hm : m.jobStream = .live)
  | failed {task : Nat} {x : Exchange} {method : String} {params : Json} {token : Option Nat}
      (hl : l.tasks.lookup task = some (.askJobs x method params token))
      (hm : m.jobStream = .unasked)

variable {l m : Link} {a : Actor} {x : Exchange} {task id : Nat} {method : String} {params : Json}
  {token : Option Nat} {e : Event} {es : List Event}

theorem outcome_eq_ok {r : Response} {v : Json} (ho : r.outcome = .ok v) :
    r.error = none ∧ r.result = v := by
  unfold Response.outcome at ho
  cases he : r.error with
  | some e => rw [he] at ho; cases ho
  | none =>
    rw [he] at ho
    exact ⟨rfl, Except.ok.inj ho⟩

/-! ## Who asks -/

section
variable (hl : l.Tidy)
include hl

theorem asking_of_askJobs (ht : l.tasks.lookup task = some (.askJobs x method params token)) :
    l.jobStream = .asking task := by
  have hasks : (l.hand (.caller task)).asks = true := by
    rw [hand_of_lookup ht]
    rfl
  obtain ⟨n, hn, hj⟩ := (hl.asked _).1 hasks
  cases hn
  exact hj

/-- A plain call in hand is pending until its end is there to see. -/
theorem pending_of_callOf (hx : l.callOf a = some x) (hkind : x.kind = .plain)
    (hnone : l.slots.lookup x.id = none) : l.calls.pending.lookup x.id = some .plain := by
  have hcall : (l.hand a).call = some (x.id, .plain) := hkind ▸ call_of_callOf hx
  rcases hl.known_of_callOf hx with (hp | hw) | hsome
  · obtain ⟨kind, hk⟩ := Option.isSome_iff_exists.1 (Table.lookup_isSome.2 hp)
    rw [hk, hl.owned.pending a x.id .plain kind hcall hk]
  · cases hl.owned.waiting a x.id .plain hcall hw
  · rw [hnone] at hsome
    cases hsome

theorem id_lt_of_askJobs (ht : l.tasks.lookup task = some (.askJobs x method params token)) :
    x.id < l.calls.nextId := by
  have hx : l.callOf (.caller task) = some x := by rw [callOf, ht]; rfl
  exact hl.owned.admitted _ (hl.known_of_callOf hx)

end

section
variable (hs : l.Streamed)
include hs

theorem Streamed.asks (ht : l.tasks.lookup task = some (.askJobs x method params token)) :
    x.kind = .plain ∧ (question x.id).frame = .ok x.frame := by
  rcases hs.tasks task _ ht with hp | ⟨_, _, _, hstarts⟩
  · exact hp.elim
  · cases hstarts with
    | asks hkind hframe => exact ⟨hkind, hframe⟩
    | calls hjob =>
      obtain ⟨_, hcall, -⟩ := hjob
      cases hcall

/-- Where a question in hand comes from: it is new, or was in hand before. -/
theorem askJobs_cases (hi : l.Inv)
    (ht : (l.step e).tasks.lookup task = some (.askJobs x method params token)) :
    e.actor? = some (.caller task) ∧ l.jobStream = .unasked ∧ l.calls.closed = none ∧
        x.id = l.calls.nextId ∨
      ∃ y method params token, l.tasks.lookup task = some (.askJobs y method params token) ∧
        y.id = x.id := by
  by_cases ha : e.actor? = some (.caller task)
  · rcases hs.turn hi ha with hm | ⟨_, _, _, hm⟩
    · exact (hm.ends _ ht).elim
    · cases hm with
      | waits _ hm => cases hm.ends _ ht
      | calls _ _ hm => exact absurd (hm.ends _ ht) Task.not_callsJob_askJobs
      | ensures _ hm =>
        cases hm with
        | calls _ hm => exact absurd (hm.ends _ ht) Task.not_callsJob_askJobs
        | awaits _ hm =>
          rw [hm] at ht
          cases Table.lookup_insert_self.symm.trans ht
        | asks hj hid _ _ ht' _ _ hc =>
          cases ht'.symm.trans ht
          have hopen : l.isOpen = true := isOpen_event hi (isOpen_iff.2 hc)
          exact .inl ⟨ha, hj, isOpen_iff.1 hopen, hid⟩
        | denied _ _ hm =>
          rw [hm] at ht
          cases Table.lookup_erase_self.symm.trans ht
      | attempts hold _ _ hm =>
        cases hm with
        | going ht' hy =>
          cases ht'.symm.trans ht
          rw [hy]
          exact .inr ⟨_, _, _, _, hold, rfl⟩
        | accepted _ _ _ _ hjob => exact absurd (hjob _ ht) Task.not_callsJob_askJobs
        | refused _ _ hnone | failed hnone | unwritten hnone | dropped _ hnone =>
          cases hnone.symm.trans ht
  · exact .inr ⟨x, method, params, token, (step_others ha).1.symm.trans ht, rfl⟩

/-- A task asks only if nobody has asked and the connection is open. -/
theorem unasked_of_issues (hl : l.Tidy) (hi : l.Inv) (h : l.Issues e) :
    l.jobStream = .unasked ∧ l.calls.closed = none := by
  obtain ⟨task, x, method, params, token, ht, hid⟩ := h
  rcases askJobs_cases hs hi ht with ⟨-, hj, hc, -⟩ | ⟨y, _, _, _, hold, hy⟩
  · exact ⟨hj, hc⟩
  · exact absurd (id_lt_of_askJobs hl hold) (by omega)

/-- **What an event does to the question for job reports.** -/
theorem stream_event (hi : l.Inv) (e : Event) : Streams l (l.step e) := by
  cases ha : e.actor? with
  | none => exact .same (shared_steady ha).2
  | some a =>
    cases a with
    | reader => exact .same (reader_turn_steady ha).2
    | probe => exact .same (hs.probe_turn ha).stream
    | caller task =>
      rcases hs.turn hi ha with hm | ⟨_, _, _, hm⟩
      · exact .same hm.stream
      · cases hm with
        | waits _ hm => exact .same hm.stream
        | calls _ _ hm => exact .same hm.stream
        | ensures _ hm =>
          cases hm with
          | calls _ hm => exact .same hm.stream
          | awaits _ hm | denied _ _ hm => exact .same (by rw [hm]; rfl)
          | asks hj _ _ _ _ hm _ hc => exact .asked hj hm hc
        | attempts ht _ _ hm =>
          cases hm with
          | going _ _ hj => exact .same hj
          | accepted hslot hv hj => exact .accepted ⟨_, _, _, _, _, ht, rfl, hslot, hv⟩ hj
          | refused _ _ _ _ hj | failed _ _ hj | unwritten _ _ hj | dropped _ _ _ hj =>
            exact .failed ht hj

/-- The server comes to send job reports when a task sees that it has accepted. -/
theorem live_of_event (hi : l.Inv) (hj : (l.step e).jobStream = .live) :
    l.jobStream = .live ∨ ∃ task id, l.Acknowledged task id := by
  cases stream_event hs hi e with
  | same hsame => exact .inl (hsame.symm.trans hj)
  | asked _ hm => cases hm.symm.trans hj
  | accepted h => exact .inr ⟨_, _, h⟩
  | failed _ hm => cases hm.symm.trans hj

/-- The server has accepted the question of a task only by an answer to it. -/
theorem acknowledged_of_event (hl : l.Tidy) (hspent : l.Spent) (hi : l.Inv)
    (h : (l.step e).Acknowledged task id) : l.Acknowledged task id ∨ l.Accepts e task id := by
  obtain ⟨x, method, params, token, v, ht, rfl, hslot, hv⟩ := h
  rcases askJobs_cases hs hi ht with ⟨ha, -, -, hid⟩ | ⟨y, _, _, _, hold, hy⟩
  · -- a new question has no answer yet
    rcases Deeds.slot_of_end (step_turn ha) hslot with hsome | ⟨_, -, herror⟩
    · exact absurd (hl.owned.admitted _ (.inr (Option.isSome_of_eq_some hsome))) (by omega)
    · cases herror
  · obtain ⟨hkind, hframe⟩ := hs.asks hold
    have hcall : l.callOf (.caller task) = some y := by rw [callOf, hold]; rfl
    have hcall' : (l.step e).callOf (.caller task) = some x := by rw [callOf, ht]; rfl
    rw [hy] at hframe
    cases hnone : l.slots.lookup x.id with
    | some how =>
      -- an end that is kept stays as it is
      have hkept := hspent.slot_event ((hl.event e).known_of_callOf hcall') hnone
      rw [hslot] at hkept
      cases hkept
      exact .inl ⟨_, _, _, _, v, hold, hy, hnone, hv⟩
    | none =>
      rcases slot_answered hl hcall hkind (hy ▸ hslot) with hsame | ⟨r, hr, hid, ho⟩
      · rw [hy, hnone] at hsame
        cases hsame
      · obtain ⟨he, rfl⟩ := outcome_eq_ok ho
        have hpending := pending_of_callOf hl hcall hkind (hy ▸ hnone)
        exact .inr ⟨⟨_, _, _, _, hold, hy, hframe⟩, hy ▸ hpending, r, hr, hid.trans hy, he,
          accepts_of_acknowledges hv⟩

end

/-! ## Before the first job -/

theorem Accepted.append (h : l.Accepted es) (e : Event) : l.Accepted (es ++ [e]) := by
  obtain ⟨before, d, after, task, id, rfl, hd⟩ := h
  exact ⟨before, d, after ++ [e], task, id, by simp, hd⟩

/-- Where the server sends job reports, or has accepted to, it has accepted by an answer. -/
theorem accepted_run (settings : Settings) (es : List Event) :
    (((ofSettings settings).run es).jobStream = .live → (ofSettings settings).Accepted es) ∧
    ∀ task id, ((ofSettings settings).run es).Acknowledged task id →
      (ofSettings settings).Accepted es := by
  -- on the last event, since the answer may have come at any time
  induction es using List.reverseRecOn with
  | nil => exact ⟨by rintro ⟨⟩, by rintro _ _ ⟨_, _, _, _, _, ⟨⟩, _⟩⟩
  | append_singleton es e ih =>
    have hl : ((ofSettings settings).run es).Reachable := ⟨settings, es, rfl⟩
    have hack : ∀ task id, ((ofSettings settings).run es).Acknowledged task id →
        (ofSettings settings).Accepted (es ++ [e]) := fun task id h => (ih.2 task id h).append e
    rw [run_append]
    refine ⟨fun hj => ?_, fun task id h => ?_⟩
    · rcases live_of_event hl.streamed hl.inv hj with hlive | ⟨task, id, h⟩
      · exact (ih.1 hlive).append e
      · exact hack task id h
    · rcases acknowledged_of_event hl.streamed hl.tidy hl.spent hl.inv h with h | h
      · exact hack task id h
      · exact ⟨es, e, [], task, id, rfl, h⟩

theorem probe_of_callOf (hx : l.callOf .probe = some x) : l.probe = .asking x := by
  rw [callOf] at hx
  cases hp : l.probe <;> rw [hp] at hx <;> cases hx
  rfl

/-- Whoever has a job call in hand knows that the server sends job reports. -/
theorem Streamed.live_of_job (hs : l.Streamed) (hx : l.callOf a = some x) (hkind : x.kind = .job) :
    l.jobStream = .live := by
  have hplain : x.kind ≠ .plain := by
    rw [hkind]
    simp
  cases a with
  | reader => cases hx
  | probe => exact absurd (hs.probe x (probe_of_callOf hx)) hplain
  | caller task =>
    obtain ⟨t, ht, hy⟩ := Option.bind_eq_some_iff.1 hx
    rcases hs.tasks task t ht with hp | ⟨_, _, _, hstarts⟩
    · cases t with
      | call | subscribe | login | readVersion =>
        cases hy
        exact absurd hp hplain
      | askJobs => exact hp.elim
      | awaitJobs | close | join => cases hy
    · cases hstarts with
      | awaits => cases hy
      | asks hno =>
        cases hy
        exact absurd hno hplain
      | calls hjob =>
        obtain ⟨y, rfl, hjob, -⟩ := hjob
        cases hy
        exact hs.live task _ _ ht hkind

/-- **No job before the stream.** What is written is the request of a call in hand, and the server
has accepted to send job reports before that of a call that starts a job is. -/
theorem written_after_accepted (settings : Settings) (es : List Event) (e : Event) :
    let l := (ofSettings settings).run es
    (l.step e).sent = l.sent ∨ ∃ a x, e.actor? = some a ∧ (l.step e).callOf a = some x ∧
      x.stage = .writing ∧ (l.step e).sent = l.sent ++ [x.frame] ∧
      (x.kind = .job → (ofSettings settings).Accepted es) := by
  intro l
  have hl : l.Reachable := ⟨settings, es, rfl⟩
  have hnext := hl.streamed.event hl.inv hl.tidy e
  rcases hl.streamed.writes hl.inv e with hs | ⟨a, ha, hs | ⟨x, hx, hstage, hs⟩⟩
  · exact .inl hs
  · exact .inl hs
  · refine .inr ⟨a, x, ha, hx, hstage, hs, fun hkind => ?_⟩
    rcases live_of_event hl.streamed hl.inv (hnext.live_of_job hx hkind) with hj | ⟨task, id, h⟩
    · exact (accepted_run settings es).1 hj
    · exact (accepted_run settings es).2 task id h

/-! ## After the server has accepted -/

theorem acknowledges_of_accepts {v : Json}
    (hv : v = .bool true ∨ ∃ name, v = .string name ∧ name ≠ "") : acknowledges v = true := by
  rcases hv with rfl | ⟨name, rfl, hname⟩
  · rfl
  · simpa [acknowledges] using hname

/-- The answer waits for the task to see it. -/
theorem Accepts.acknowledged (hi : l.Inv) (h : l.Accepts e task id) :
    (l.step e).Acknowledged task id := by
  obtain ⟨⟨x, method, params, token, ht, rfl, -⟩, hp, r, hr, hid, he, hv⟩ := h
  have ha : e.actor? = none := by
    cases ha : e.actor? with
    | none => rfl
    | some a => cases (dispatched?_of_turn ha).symm.trans hr
  have hplace : SamePlace l (l.step e) (.caller task) := step_others (by simp [ha])
  have hstep : l.step e = l.perform (.answer r) := by
    cases e with
    | receive i => rw [step_dispatched ha, hr, Option.map_some, Option.getD_some]
    | _ => cases hr
  refine ⟨x, method, params, token, r.result, hplace.1.trans ht, rfl, ?_,
    acknowledges_of_accepts hv⟩
  rw [hstep, ← hid]
  cases answered_perform hi (hid ▸ hp) with
  | failed herror => rw [he] at herror; cases herror
  | returned _ hm => exact hm.slot

theorem Acknowledged.asking (hl : l.Tidy) (h : l.Acknowledged task id) :
    l.jobStream = .asking task := by
  obtain ⟨x, _, _, _, _, ht, -⟩ := h
  exact asking_of_askJobs hl ht

theorem closed_stays (hi : l.Inv) (hc : l.isOpen = false) (e : Event) :
    (l.step e).isOpen = false := by
  cases ho : (l.step e).isOpen with
  | false => rfl
  | true => rw [isOpen_event hi ho] at hc; cases hc

/-- Where nobody will ask, nobody will ask later. -/
theorem Decided.event (h : l.Decided) (hs : l.Streamed) (hi : l.Inv) (hl : l.Tidy) (e : Event) :
    (l.step e).Decided := by
  rcases h with hj | ⟨hj, hc⟩
  · exact .inl (live_event hl hj e)
  · have hclosed := closed_stays hi hc e
    cases stream_event hs hi e with
    | same hsame => exact .inr ⟨hsame.trans hj, hclosed⟩
    | asked _ _ hopen =>
      rw [isOpen_iff.2 hopen] at hclosed
      cases hclosed
    | accepted _ hlive => exact .inl hlive
    | failed _ hunasked => exact .inr ⟨hunasked, hclosed⟩

/-- A turn of a task that asks. -/
theorem attempted_turn (hs : l.Streamed) (hi : l.Inv)
    (ht : l.tasks.lookup task = some (.askJobs x method params token))
    (ha : e.actor? = some (.caller task)) :
    Attempted l e task x method params token (l.step e) := by
  obtain ⟨hkind, hframe⟩ := hs.asks ht
  cases job_turn hi ht (.asks hkind hframe) ha with
  | waits ht' => cases ht'.symm.trans ht
  | calls ht' => cases ht'.symm.trans ht
  | ensures ht' => cases ht' _ ht
  | attempts ht' _ _ hm =>
    cases ht'.symm.trans ht
    exact hm

/-- A task whose question is accepted comes to see it, unless it is given up before. -/
theorem Acknowledged.event (h : l.Acknowledged task id) (hs : l.Streamed) (hi : l.Inv)
    (hl : l.Tidy) (hspent : l.Spent) (he : e ≠ .drop task) :
    (l.step e).Acknowledged task id ∨ (l.step e).Decided := by
  obtain ⟨x, method, params, token, v, ht, rfl, hslot, hv⟩ := h
  by_cases ha : e.actor? = some (.caller task)
  · cases attempted_turn hs hi ht ha with
    | going ht' hy _ _ hslots =>
      exact .inl ⟨_, _, _, _, v, ht', by rw [hy], hslots ▸ hslot, hv⟩
    | accepted _ _ hj => exact .inr (.inl hj)
    | refused hslot' hv' =>
      cases hslot'.symm.trans hslot
      cases hv'.symm.trans hv
    | failed _ _ hj _ hc hno =>
      refine .inr (.inr ⟨hj, ?_⟩)
      cases hopen : l.isOpen with
      | false => exact closed_stays hi hopen e
      | true => exact absurd hslot (hno hopen v)
    | unwritten _ _ hj _ hc =>
      refine .inr (.inr ⟨hj, ?_⟩)
      rw [isOpen, hc, closed_teardown]
      rfl
    | dropped hdrop => exact absurd hdrop he
  · have ht' := (step_others ha).1.trans ht
    have hcall : (l.step e).callOf (.caller task) = some x := by rw [callOf, ht']; rfl
    exact .inl ⟨x, _, _, _, v, ht', rfl,
      hspent.slot_event ((hl.event e).known_of_callOf hcall) hslot, hv⟩

/-- Since the server has accepted the question of a task, the task is about to see it, or nobody
will ask any more, or the task was given up before it had seen it. -/
theorem Acknowledged.run (hl : l.Reachable) (h : l.Acknowledged task id) (later : List Event) :
    (l.run later).Acknowledged task id ∨ (l.run later).Decided ∨
      ∃ before after, later = before ++ .drop task :: after ∧
        (l.run before).Acknowledged task id := by
  induction later using List.reverseRecOn with
  | nil => exact .inl h
  | append_singleton later e ih =>
    have hm := hl.run later
    rw [run_append]
    rcases ih with hack | hdecided | ⟨before, after, rfl, hack⟩
    · by_cases he : e = .drop task
      · exact .inr (.inr ⟨later, [], by rw [he], hack⟩)
      · exact (hack.event hm.streamed hm.inv hm.tidy hm.spent he).imp_right .inl
    · exact .inr (.inl (hdecided.event hm.streamed hm.inv hm.tidy e))
    · exact .inr (.inr ⟨before, after ++ [e], by simp, hack⟩)

theorem Decided.run (hl : l.Reachable) (h : l.Decided) (later : List Event) :
    (l.run later).Decided := by
  induction later using List.reverseRecOn with
  | nil => exact h
  | append_singleton later e ih =>
    have hm := hl.run later
    rw [run_append]
    exact ih.event hm.streamed hm.inv hm.tidy e

/-- Who asks knows that nobody has asked before, and that the connection is open. -/
theorem Decided.not_issues (hl : l.Reachable) (h : l.Decided) : ¬ l.Issues e := by
  intro hissues
  obtain ⟨hj, hc⟩ := unasked_of_issues hl.streamed hl.tidy hl.inv hissues
  rcases h with hlive | ⟨-, hclosed⟩
  · cases hlive.symm.trans hj
  · rw [isOpen_iff.2 hc] at hclosed
    cases hclosed

/-- **Nobody asks twice.** Since the server has accepted the question of a task, somebody asks again
only if the task was given up before it had seen that. -/
theorem Acknowledged.issues (hl : l.Reachable) (h : l.Acknowledged task id) {later : List Event}
    (hissues : (l.run later).Issues e) :
    ∃ before after, later = before ++ .drop task :: after ∧ (l.run before).Acknowledged task id := by
  have hm := hl.run later
  rcases h.run hl later with hack | hdecided | hdropped
  · obtain ⟨hj, -⟩ := unasked_of_issues hm.streamed hm.tidy hm.inv hissues
    cases (hack.asking hm.tidy).symm.trans hj
  · exact absurd hissues (hdecided.not_issues hm)
  · exact hdropped

/-! ## Attempts -/

theorem Ensures.ensured (hi : l.Inv) (h : l.Ensures e task method params token) :
    Ensured l task method params token (l.step e) := by
  cases h with
  | start hu =>
    simp only [step, hu, Bool.false_eq_true, ↓reduceIte]
    exact ensureJobs_ensured hi
  | resume ht w eager =>
    simp only [step, ht]
    exact ensureJobs_ensured hi

/-- Where nobody has asked, the next task asks. -/
theorem Ensured.asked (h : Ensured l task method params token m) (hj : l.jobStream = .unasked)
    (hopen : l.isOpen = true) : ∃ x, m.tasks.lookup task =
      some (.askJobs x method params token) ∧ x.id = l.calls.nextId ∧
        (question x.id).frame = .ok x.frame := by
  cases h with
  | calls hlive => cases hlive.symm.trans hj
  | awaits hasking => cases hasking.symm.trans hj
  | asks _ hid _ hframe ht => exact ⟨_, ht, hid, hframe⟩
  | denied _ hc =>
    rw [isOpen_iff, hc] at hopen
    cases hopen

/-- **Jobs start on a live stream of reports.** At any time, what an event writes is the request of a
call in hand, and if the call starts a job, the server has accepted to send job reports before. A
task that is to start a job keeps to that. Once the server has accepted a question, somebody asks
again only if the task that has asked is given up before it has seen that, and once a task has seen
it, nobody does. Whoever makes sure that the server sends job reports asks, if nobody has and the
connection is open. A turn of a task that asks has one of a few outcomes: if the question fails or is
given up, the task is over, nothing is written and nobody has asked (`Attempted`). It moves nobody
else, and no call of theirs unless the connection ends, which it does only if the write fails. -/
theorem jobs_start_on_live_stream (settings : Settings) (es : List Event) :
    let l := (ofSettings settings).run es
    (∀ e, (l.step e).sent = l.sent ∨ ∃ a x, e.actor? = some a ∧ (l.step e).callOf a = some x ∧
      x.stage = .writing ∧ (l.step e).sent = l.sent ++ [x.frame] ∧
      (x.kind = .job → (ofSettings settings).Accepted es)) ∧
    (∀ task t method params token, l.tasks.lookup task = some t → t.Starts method params token →
      ∀ e u, (l.step e).tasks.lookup task = some u → u.Starts method params token) ∧
    (∀ e task id, l.Accepts e task id → (l.step e).Acknowledged task id ∧
      ∀ later d, ((l.step e).run later).Issues d →
        ∃ before after, later = before ++ .drop task :: after ∧
          ((l.step e).run before).Acknowledged task id) ∧
    (l.jobStream = .live → ∀ later d, ¬ (l.run later).Issues d) ∧
    (∀ e task method params token, l.Ensures e task method params token →
      Ensured l task method params token (l.step e) ∧
      (l.jobStream = .unasked → l.isOpen = true → ∃ x, (l.step e).tasks.lookup task =
        some (.askJobs x method params token) ∧ x.id = l.calls.nextId ∧
          (question x.id).frame = .ok x.frame)) ∧
    ∀ task x method params token, l.tasks.lookup task = some (.askJobs x method params token) →
      ∀ e, e.actor? = some (.caller task) →
        Attempted l e task x method params token (l.step e) ∧
        (∀ a, a ≠ .caller task → SamePlace l (l.step e) a) ∧
        ((l.step e).calls.closed = l.calls.closed → ∀ id < l.calls.nextId, id ≠ x.id →
          Unaffected l (l.step e) id) := by
  intro l
  have hl : l.Reachable := ⟨settings, es, rfl⟩
  refine ⟨written_after_accepted settings es, fun task t method params token ht hs e u hu => ?_,
    fun e task id h => ?_, fun hj later d => ?_, fun e task method params token h => ?_,
    fun task x method params token ht e ha => ⟨attempted_turn hl.streamed hl.inv ht ha,
      fun a hne => Deeds.others (step_turn ha) hne, fun hc id hid hne => ?_⟩⟩
  · by_cases ha : e.actor? = some (.caller task)
    · exact (job_turn hl.inv ht hs ha).starts hu
    · cases ((step_others ha).1.trans ht).symm.trans hu
      exact hs
  · have hack := h.acknowledged hl.inv
    exact ⟨hack, fun later d hissues => hack.issues (hl.run [e]) hissues⟩
  · exact (Decided.run hl (.inl hj) later).not_issues (hl.run later)
  · exact ⟨h.ensured hl.inv, fun hj hopen => (h.ensured hl.inv).asked hj hopen⟩
  · refine (Deeds.unaffected (step_turn ha) hl.tidy.owned.calls hc hid fun kind hcall => ?_).1
    rw [hand_of_lookup ht] at hcall
    cases hcall
    exact hne rfl

/-! ## Questions that are not written, or not seen -/

/-- A caller waits for an answer, and another is asking for job reports. -/
def askedBeside : List Event :=
  [.start 1 (.call "pool.query" .null none), .resume 1 .written false,
    .start 2 (.callAndWait "scrub" .null none)]

/-- If the write of the question fails, the first caller's call ends as well, and a third caller
cannot ask. -/
theorem run_askedBeside : ∃ frame, let l := (ofSettings {}).run askedBeside
    let m := l.step (.resume 2 (.writeFailed "broken pipe") false)
    (l.tasks.lookup 2, l.calls.nextId, l.slots.lookup 1) =
      (some (.askJobs ⟨2, Method.subscribe, .plain, frame, .writing⟩ "scrub" .null none), 3, none) ∧
    (m.tasks.lookup 2, m.slots.lookup 1, m.isUsed 3,
      (m.step (.start 3 (.callAndWait "scrub" .null none))).tasks.lookup 3) =
      (none, some (.filled (.error (.transport "write failed: broken pipe"))), false, none) :=
  ⟨_, by cbv, by cbv⟩

/-- A caller asks for job reports, and the server accepts. -/
theorem scrub_accepted :
    ((ofSettings {}).run (hasty.take 2)).Accepts (.receive (.text accepted)) 1 1 := by
  obtain ⟨frame, hl⟩ : ∃ frame, (((ofSettings {}).run (hasty.take 2)).tasks.lookup 1,
      ((ofSettings {}).run (hasty.take 2)).calls.pending.lookup 1,
      ((ofSettings {}).run (hasty.take 2)).reader) =
      (some (.askJobs ⟨1, Method.subscribe, .plain, frame, .waiting⟩ "scrub" .null none),
        some .plain, .running) := ⟨_, by cbv⟩
  simp only [Prod.mk.injEq] at hl
  obtain ⟨ht, hp, hr⟩ := hl
  have hasks : ((ofSettings {}).run (hasty.take 2)).Streamed :=
    Reachable.streamed ⟨{}, hasty.take 2, rfl⟩
  refine ⟨⟨_, _, _, _, ht, rfl, (hasks.asks ht).2⟩, hp, { id := 1, result := .bool true }, ?_, rfl,
    rfl, .inl rfl⟩
  rw [dispatched?, if_pos hr]
  exact ofText?_of_said (.answer reads_accepted rfl)

/-- The server has accepted a question, whose task has not seen that. -/
def unseen : Link :=
  ((ofSettings {}).run (hasty.take 2)).perform (.answer { id := 1, result := .bool true })

theorem run_unseen : (ofSettings {}).run (hasty.take 3) = unseen :=
  step_receive (by cbv) (.answer reads_accepted rfl)

/-- If the task is given up, the next one asks again. -/
theorem asked_again : ∃ frame, ((unseen.step (.drop 1)).calls.nextId,
    ((unseen.step (.drop 1)).step (.start 2 (.callAndWait "scrub" .null none))).tasks.lookup 2) =
      (2, some (.askJobs ⟨2, Method.subscribe, .plain, frame, .writing⟩ "scrub" .null none)) :=
  ⟨_, by cbv⟩

/-- A question that fails is not only the failure of its task if its write fails: others' calls end,
and nobody asks again. And a question that the server has accepted is asked again if its task is
given up before it has seen that. -/
theorem questions_unwritten_or_unseen :
    (¬ ∀ l : Link, l.Reachable → ∀ task x method params token e,
      l.tasks.lookup task = some (.askJobs x method params token) →
      e.actor? = some (.caller task) → (l.step e).tasks.lookup task = none →
      ∀ id < l.calls.nextId, id ≠ x.id → Unaffected l (l.step e) id) ∧
    (¬ ∀ l : Link, l.Reachable → ∀ task x method params token e,
      l.tasks.lookup task = some (.askJobs x method params token) →
      e.actor? = some (.caller task) → (l.step e).tasks.lookup task = none →
      ∀ d other method params token, (l.step e).Ensures d other method params token →
        ∃ y, ((l.step e).step d).tasks.lookup other = some (.askJobs y method params token)) ∧
    ¬ ∀ l : Link, l.Reachable → ∀ e task id, l.Accepts e task id →
      ∀ later d, ¬ ((l.step e).run later).Issues d := by
  obtain ⟨frame, hl, hm⟩ := run_askedBeside
  simp only [Prod.mk.injEq] at hl hm
  obtain ⟨ht, hnext, hslot⟩ := hl
  obtain ⟨hover, hslot', hused, hnone⟩ := hm
  have hreach : ((ofSettings {}).run askedBeside).Reachable := ⟨{}, askedBeside, rfl⟩
  have hne : (1 : Nat) ≠ 2 := by decide
  refine ⟨fun hall => ?_, fun hall => ?_, fun hall => ?_⟩
  · have hsame := (hall _ hreach 2 _ _ _ _ (.resume 2 (.writeFailed "broken pipe") false) ht rfl hover
      1 (by rw [hnext]; decide) hne).slot
    rw [hslot, hslot'] at hsame
    cases hsame
  · obtain ⟨y, hy⟩ := hall _ hreach 2 _ _ _ _ (.resume 2 (.writeFailed "broken pipe") false) ht rfl
      hover _ 3 "scrub" .null none (.start hused)
    cases hnone.symm.trans hy
  · obtain ⟨frame, hagain⟩ := asked_again
    obtain ⟨hnext', hasks⟩ := Prod.mk.inj hagain
    refine hall _ ⟨{}, hasty.take 2, rfl⟩ _ 1 1 scrub_accepted [.drop 1]
      (.start 2 (.callAndWait "scrub" .null none)) ?_
    show Issues (((ofSettings {}).run (hasty.take 3)).step (.drop 1)) _
    rw [run_unseen]
    exact ⟨2, _, _, _, _, hasks, by rw [hnext']⟩

/-- If the task sees that the server has accepted, it goes on to its call. -/
theorem resume_unseen : ∃ frame, ((unseen.step (.resume 1 .nothing false)).callOf (.caller 1),
    unseen.sent.length, (unseen.step (.resume 1 .nothing false)).sent.length) =
      (some ⟨2, "scrub", .job, frame, .writing⟩, 1, 2) := ⟨_, by cbv⟩

theorem scrub_starts_after_acceptance :
    (∃ x, ((ofSettings {}).step (.start 1 (.callAndWait "scrub" .null none))).tasks.lookup 1 =
      some (.askJobs x "scrub" .null none) ∧ x.id = 1) ∧
    (∀ d, ¬ ((ofSettings {}).run (hasty.take 3)).Issues d) ∧
    (ofSettings {}).Accepted (hasty.take 3) := by
  refine ⟨?_, fun d hd => ?_, ?_⟩
  · obtain ⟨x, hx, hid, -⟩ := ((jobs_start_on_live_stream {} []).2.2.2.2.1 _ 1 "scrub" .null none
      (.start rfl)).2 rfl rfl
    exact ⟨x, hx, hid⟩
  · obtain ⟨before, after, he, -⟩ :=
      ((jobs_start_on_live_stream {} (hasty.take 2)).2.2.1 _ 1 1 scrub_accepted).2 [] d hd
    simp at he
  · obtain ⟨frame, hrun⟩ := resume_unseen
    simp only [Prod.mk.injEq, ← run_unseen] at hrun
    obtain ⟨hx, hbefore, hafter⟩ := hrun
    rcases (jobs_start_on_live_stream {} (hasty.take 3)).1 (.resume 1 .nothing false) with
      hs | ⟨a, y, ha, hy, -, -, haccepted⟩
    · rw [hs, hbefore] at hafter
      cases hafter
    · cases ha
      cases hx.symm.trans hy
      exact haccepted rfl

end ServerLink.Link
