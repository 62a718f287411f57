import ServerLink.Proofs.Client.Connected
import ServerLink.Proofs.Link.JobTurns
import ServerLink.Proofs.Link.LostCalls

/-!
# Tasks that come one after another

Whoever waits for one task before it starts the next never has two under way. A task that has given
its result does nothing more (`InTurn.result_stays`). No call takes another's place, so that nobody
is told that the connection is closed before it is (`InTurn.told`).
-/

namespace ServerLink.Link

/-- The task that an event starts, unless its number is taken. -/
def Event.starts? : Event → Option Nat
  | .start n _ | .handshake n _ => some n
  | _ => none

/-- A task is under way or has given its result, not both. -/
def IsOnce (l : Link) (task : Nat) : Prop :=
  l.tasks.lookup task = none ∨ l.results.lookup task = none

/-- Tasks come one after another on this connection, and this is the last one. -/
structure InTurn (l : Link) (task : Nat) : Prop where
  inv : l.Inv
  tidy : l.Tidy
  streamed : l.Streamed
  others : ∀ n, n ≠ task → l.tasks.lookup n = none
  once : l.IsOnce task
  kept : l.calls.closed = none → ∀ id, l.slots.lookup id ≠ some .abandoned
  told : l.calls.closed = none → ∀ n reason,
    l.results.lookup n ≠ some (.error (.closed reason))

/-- A task that closes the connection, and gives nothing but that it is done. -/
structure Leaving (l : Link) (task : Nat) : Prop where
  tasks : ∀ t, l.tasks.lookup task = some t → (∃ stage, t = .close stage) ∨ t = .join
  results : ∀ r, l.results.lookup task = some r → r = .ok .done

variable {l m : Link} {a : Actor} {x : Exchange} {task n : Nat} {e : Event} {r : Result}
  {method : String} {params : Json} {kind : Call.Kind} {token : Option Nat}

/-! ## A task gives its result once -/

theorem results_release (l : Link) (a : Actor) (stage : Release) :
    (l.release a stage).1.results = l.results := by
  unfold release
  repeat' split
  all_goals rfl

namespace IsOnce

theorem finish (l : Link) (r : Result) : (l.finish task r).IsOnce task :=
  .inl Table.lookup_erase_self

theorem setTask (hr : l.results.lookup task = none) (t : Task) : (l.setTask task t).IsOnce task :=
  .inr hr

theorem proceed {p : Link × Exchange.Progress} {going : Exchange → Task}
    {next : Link → Outcome → Link} (hp : p.1.results.lookup task = none)
    (hnext : ∀ m o, m.results.lookup task = none → (next m o).IsOnce task) :
    (Link.proceed task p going next).IsOnce task := by
  obtain ⟨m, x | o⟩ := p
  · exact setTask hp _
  · exact hnext m o hp

theorem finishCall (m : Link) (o : Outcome) (_ : m.results.lookup task = none) :
    (Link.finishCall task m o).IsOnce task := finish m _

theorem versionAnswered (m : Link) (o : Outcome) (_ : m.results.lookup task = none) :
    (Link.versionAnswered task m o).IsOnce task := finish m _

theorem subscribeAnswered (s : Subscription) (m : Link) (o : Outcome)
    (_ : m.results.lookup task = none) : (Link.subscribeAnswered task s m o).IsOnce task := by
  unfold Link.subscribeAnswered
  repeat' split
  all_goals exact finish _ _

section
variable (hr : l.results.lookup task = none)
include hr

theorem begun (method : String) (params : Json) (kind : Call.Kind) :
    (l.begin (.caller task) method params kind).1.results.lookup task = none := by
  rw [(Aside.begin l _ _ _ _).results]
  exact hr

theorem startJob : (l.startJob task method params token).IsOnce task :=
  proceed (begun hr method params .job) finishCall

theorem startSubscribe (collection : String) (filter : Json) :
    (l.startSubscribe task collection filter).IsOnce task := by
  unfold Link.startSubscribe
  split
  · exact finish _ _
  · rename_i s fanout _
    exact proceed (begun (l := { l with fanout }) hr _ _ .plain) (subscribeAnswered s)

theorem loginAnswered (o : Outcome) : (Link.loginAnswered task l o).IsOnce task := by
  unfold Link.loginAnswered
  split
  · exact finish _ _
  · exact proceed (begun hr _ _ .plain) versionAnswered

theorem startHandshake (c : Credentials) : (l.startHandshake task c).IsOnce task :=
  proceed (begun hr _ _ .plain) fun _ o hm => loginAnswered hm o

theorem startJoin : (l.startJoin task).IsOnce task := by
  unfold Link.startJoin
  split
  · exact setTask (l := { l with joinable := false }) hr _
  · exact finish _ _

end

theorem jobsAnswered (m : Link) (o : Outcome) (hr : m.results.lookup task = none) :
    (Link.jobsAnswered task method params token m o).IsOnce task := by
  unfold Link.jobsAnswered
  repeat' split
  · exact finish _ _
  · exact startJob (l := { m with jobStream := .live }) hr
  · exact finish _ _

theorem ensureJobs (hr : l.results.lookup task = none) :
    (l.ensureJobs task method params token).IsOnce task := by
  unfold Link.ensureJobs
  split
  · exact startJob hr
  · exact setTask hr _
  · exact proceed (begun (l := { l with jobStream := .asking task }) hr _ _ .plain) jobsAnswered

theorem continueClose {p : Link × Option Release} (hp : p.1.results.lookup task = none) :
    (Link.continueClose task p).IsOnce task := by
  obtain ⟨m, stage⟩ := p
  cases stage with
  | some stage => exact setTask hp _
  | none => exact startJoin hp

theorem released (hr : l.results.lookup task = none) (stage : Release) :
    (Link.continueClose task (l.release (.caller task) stage)).IsOnce task := by
  refine continueClose ?_
  rw [results_release]
  exact hr

theorem startTask (hr : l.results.lookup task = none) (o : Operation) :
    (l.startTask task o).IsOnce task := by
  cases o with
  | call method params token => exact proceed (begun hr method params .plain) finishCall
  | callAndWait method params token => exact ensureJobs hr
  | subscribe collection filter => exact startSubscribe hr collection filter
  | close =>
    refine released (l := (l.teardown (.closed "client closed")).joinLine (.caller task)) ?_ .queued
    exact (congrArg (·.lookup task) (Aside.perform l (.teardown _)).results).trans hr

theorem resumeTask (hr : l.results.lookup task = none) (ht : l.IsOnce task) (t : Task) (w : Wakeup)
    (eager : Bool) : (l.resumeTask task t w eager).IsOnce task := by
  have hresumed : ∀ x c, (l.resume (.caller task) x c w).1.results.lookup task = none := by
    intro x c
    rw [(Aside.resume l _ _ _ _).results]
    exact hr
  cases t with
  | call x token => exact proceed (hresumed x _) finishCall
  | awaitJobs method params token => exact ensureJobs hr
  | askJobs x method params token => exact proceed (hresumed x _) jobsAnswered
  | subscribe s x => exact proceed (hresumed x _) (subscribeAnswered s)
  | login x => exact proceed (hresumed x _) fun _ o hm => loginAnswered hm o
  | readVersion x => exact proceed (hresumed x _) versionAnswered
  | close stage =>
    cases stage with
    | queued => exact released hr .queued
    | closing => cases w <;> first | exact ht | exact startJoin hr
  | join =>
    dsimp only [Link.resumeTask]
    split
    · exact finish l _
    · exact ht

theorem dropTask (l : Link) (t : Task) : (l.dropTask task t).IsOnce task := by
  refine .inl ?_
  cases t <;> exact Table.lookup_erase_self

/-- **A task that has given its result goes on no more.** -/
theorem event (h : l.IsOnce task) (e : Event) : (l.step e).IsOnce task := by
  by_cases ha : e.actor? = some (.caller task)
  · have hunused : ¬ l.isUsed task = true → l.results.lookup task = none := by
      intro hu
      cases hr : l.results.lookup task with
      | none => rfl
      | some r => simp [isUsed, hr] at hu
    cases e with
    | start n o =>
      cases ha
      dsimp only [step]
      split
      · exact h
      · rename_i hu
        exact startTask (hunused hu) o
    | handshake n c =>
      cases ha
      dsimp only [step]
      split
      · exact h
      · rename_i hu
        exact startHandshake (hunused hu) c
    | resume n w eager =>
      cases ha
      dsimp only [step]
      split
      · rename_i t ht
        exact resumeTask (h.resolve_left (by rw [ht]; simp)) h t w eager
      · exact h
    | drop n =>
      cases ha
      dsimp only [step]
      split
      · exact dropTask l _
      · exact h
    | receive i => cases i <;> cases ha
    | _ => cases ha
  · obtain ⟨ht, hr⟩ : SamePlace l (l.step e) (.caller task) := step_others ha
    exact h.imp ht.trans hr.trans

end IsOnce

/-! ## Tasks that come one after another -/

namespace InTurn

theorem ofSettings (settings : Settings) (task : Nat) : (Link.ofSettings settings).InTurn task where
  inv := .ofSettings settings
  tidy := .ofSettings settings
  streamed := .ofSettings settings
  others := fun _ _ => rfl
  once := .inl rfl
  kept := by rintro - _ ⟨⟩
  told := by rintro - _ _ ⟨⟩

/-- When the last task is over, another can be the last. -/
theorem next (h : l.InTurn task) (ht : l.tasks.lookup task = none) (n : Nat) : l.InTurn n := by
  have hnone : ∀ k, l.tasks.lookup k = none := by
    intro k
    by_cases hk : k = task
    · exact hk ▸ ht
    · exact h.others k hk
  exact ⟨h.inv, h.tidy, h.streamed, fun k _ => hnone k, .inl (hnone n), h.kept, h.told⟩

/-- Whoever makes a call that starts a job is the last task. -/
theorem maker_of_job (h : l.InTurn task) (hc : (l.hand a).call = some (n, .job)) :
    a = .caller task := by
  cases a with
  | reader =>
    rw [call_hand] at hc
    cases hc
  | probe =>
    rw [call_hand, callOf] at hc
    cases hp : l.probe with
    | asking x =>
      have hx := h.streamed.probe x hp
      rw [hp] at hc
      simp [Probe.State.exchange?, hx] at hc
    | _ =>
      rw [hp] at hc
      cases hc
  | caller k =>
    by_cases hk : k = task
    · rw [hk]
    · rw [hand_of_lookup_none (h.others k hk)] at hc
      cases hc

/-- No call takes the place of another. -/
theorem not_displaces (h : l.InTurn task) (e : Event) (id : Nat) : ¬ l.Displaces e id := by
  rintro ⟨_, _, r, -, -, -, -, ⟨r', job, hr, ⟨hpending, -⟩, hwaiting⟩⟩
  cases hr
  have howned := h.tidy.owned
  obtain ⟨a, kind, ha⟩ := (howned.known r.id).1 (.inl (Calls.outstanding_of_pending hpending))
  obtain ⟨b, kind', hb⟩ := (howned.known id).1 (.inl (Calls.outstanding_of_waiting hwaiting))
  obtain rfl : .job = kind := howned.pending a r.id kind .job ha hpending
  have hvalue : id ∈ Table.values l.calls.jobs.waiting :=
    Table.mem_values.2 ⟨job, Table.mem_of_lookup hwaiting⟩
  obtain rfl : kind' = .job := howned.waiting b id kind' hb hvalue
  -- both calls are the one that the task makes, which is in one place only
  rw [h.maker_of_job ha] at ha
  rw [h.maker_of_job hb, ha] at hb
  obtain rfl : r.id = id := congrArg Prod.fst (Option.some.inj hb)
  have hkey : r.id ∈ Table.keys l.calls.pending := Table.lookup_isSome.1 (by rw [hpending]; rfl)
  exact List.disjoint_of_nodup_append h.inv.calls.once hkey hvalue

/-- **One event** while tasks come one after another. -/
theorem event (h : l.InTurn task) (he : ∀ n, e.starts? = some n → n = task) :
    (l.step e).InTurn task := by
  have hopen : (l.step e).calls.closed = none → l.calls.closed = none := fun hc =>
    isOpen_iff.1 (isOpen_event h.inv (isOpen_iff.2 hc))
  refine ⟨h.inv.event e, h.tidy.event e, h.streamed.event h.inv h.tidy e, fun n hn => ?_,
    h.once.event e, fun hc id ha => ?_, fun hc n reason ht => ?_⟩
  · by_cases ha : e.actor? = some (.caller n)
    · have hnone := h.others n hn
      cases e with
      | start k o | handshake k c =>
        cases ha
        exact absurd (he n rfl) hn
      | resume k w eager | drop k =>
        cases ha
        simp only [step, hnone]
      | receive i => cases i <;> cases ha
      | _ => cases ha
    · exact (step_others ha : SamePlace l (l.step e) (.caller n)).1.trans (h.others n hn)
  · exact (abandoned_event h.inv ha).elim (h.kept (hopen hc) id) (h.not_displaces e id)
  · rcases told_event h.inv (isOpen_iff.2 hc) ht with hold | ⟨_, x, -, -, ha⟩
    · exact h.told (hopen hc) n reason hold
    · exact h.kept (hopen hc) x.id ha

theorem run (h : l.InTurn task) {events : List Event} (he : ∀ e ∈ events, e.starts? = none) :
    (l.run events).InTurn task := by
  induction events generalizing l with
  | nil => exact h
  | cons e events ih =>
    refine ih (h.event fun n hn => ?_) fun e' hm => he e' (List.mem_cons_of_mem _ hm)
    rw [he e (by simp)] at hn
    cases hn

/-- A result that is fetched is no longer kept. -/
theorem eraseResult (h : l.InTurn task) (n : Nat) :
    ({ l with results := Table.erase l.results n }).InTurn task := by
  have hsub : ∀ k r, (Table.erase l.results n).lookup k = some r →
      l.results.lookup k = some r := by
    intro k r hr
    by_cases hk : k = n
    · rw [hk, Table.lookup_erase_self] at hr
      cases hr
    · rwa [Table.lookup_erase_ne hk] at hr
  refine ⟨?_, ?_, ⟨h.streamed.tasks, h.streamed.live, h.streamed.probe⟩, h.others,
    h.once.imp_right fun hr => ?_, h.kept, fun hc k reason ht => h.told hc k reason (hsub k _ ht)⟩
  · exact h.inv.withResults _
  · exact h.tidy.withResults _
  · cases hk : (Table.erase l.results n).lookup task with
    | none => rfl
    | some r => exact absurd (hsub task r hk) (by rw [hr]; simp)

/-- What a task has given stays. -/
theorem result_stays (h : l.InTurn task) (hr : l.results.lookup task = some r) (e : Event) :
    (l.step e).results.lookup task = some r := by
  by_cases ha : e.actor? = some (.caller task)
  · have ht : l.tasks.lookup task = none := h.once.resolve_right (by rw [hr]; simp)
    have hu : l.isUsed task = true := by simp [isUsed, hr]
    cases e with
    | start n o | handshake n c =>
      cases ha
      simp only [step, hu, ↓reduceIte, hr]
    | resume n w eager | drop n =>
      cases ha
      simp only [step, ht, hr]
    | receive i => cases i <;> cases ha
    | _ => cases ha
  · exact (step_others ha : SamePlace l (l.step e) (.caller task)).2.trans hr

theorem result_kept (h : l.InTurn task) (hr : l.results.lookup task = some r) {events : List Event}
    (he : ∀ e ∈ events, e.starts? = none) : (l.run events).results.lookup task = some r := by
  induction events using List.reverseRecOn with
  | nil => exact hr
  | append_singleton events e ih =>
    have hbefore : ∀ e' ∈ events, e'.starts? = none := fun e' hm => he e' (by simp [hm])
    rw [run_append]
    exact (h.run hbefore).result_stays (ih hbefore) e

end InTurn

/-! ## Closing -/

namespace Leaving

theorem startJoin (hr : l.results.lookup task = none) : (l.startJoin task).Leaving task := by
  unfold Link.startJoin
  split
  · refine ⟨fun t ht => .inr ?_, fun r hr' => ?_⟩
    · exact (Option.some.inj (Table.lookup_insert_self.symm.trans ht)).symm
    · cases hr.symm.trans hr'
  · refine ⟨fun t ht => ?_, fun r hr' => ?_⟩
    · cases Table.lookup_erase_self.symm.trans ht
    · exact (Option.some.inj (Table.lookup_insert_self.symm.trans hr')).symm

theorem released (hr : l.results.lookup task = none) (stage : Release) :
    (continueClose task (l.release (.caller task) stage)).Leaving task := by
  have hresults := results_release l (.caller task) stage
  revert hresults
  generalize l.release (.caller task) stage = p
  obtain ⟨m, stage⟩ := p
  intro hresults
  have hm : m.results.lookup task = none := (congrArg (·.lookup task) hresults).trans hr
  cases stage with
  | none => exact startJoin hm
  | some stage =>
    refine ⟨fun t ht => .inl ⟨stage, ?_⟩, fun r hr' => ?_⟩
    · exact (Option.some.inj (Table.lookup_insert_self.symm.trans ht)).symm
    · cases hm.symm.trans hr'

theorem startClose (hr : l.results.lookup task = none) : (l.startClose task).Leaving task := by
  refine released (l := (l.teardown (.closed "client closed")).joinLine (.caller task)) ?_ .queued
  exact (congrArg (·.lookup task) (Aside.perform l (.teardown _)).results).trans hr

theorem event (h : l.Leaving task) (ho : l.IsOnce task) (he : e.starts? = none) :
    (l.step e).Leaving task := by
  by_cases ha : e.actor? = some (.caller task)
  · cases e with
    | start n o | handshake n c => cases he
    | resume n w eager =>
      cases ha
      dsimp only [step]
      split
      · rename_i t ht
        have hr : l.results.lookup task = none := ho.resolve_left (by rw [ht]; simp)
        rcases h.tasks t ht with ⟨stage, rfl⟩ | rfl
        · cases stage with
          | queued => exact released hr .queued
          | closing => cases w <;> first | exact h | exact startJoin hr
        · dsimp only [resumeTask]
          split
          · refine ⟨fun t ht => ?_, fun r hr' => ?_⟩
            · cases Table.lookup_erase_self.symm.trans ht
            · exact (Option.some.inj (Table.lookup_insert_self.symm.trans hr')).symm
          · exact h
      · exact h
    | drop n =>
      cases ha
      dsimp only [step]
      split
      · rename_i t ht
        have hr : l.results.lookup task = none := ho.resolve_left (by rw [ht]; simp)
        have hgone : (l.dropTask task t).tasks.lookup task = none ∧
            (l.dropTask task t).results = l.results := by
          cases t <;> exact ⟨Table.lookup_erase_self, rfl⟩
        refine ⟨fun t ht => ?_, fun r hr' => ?_⟩
        · cases hgone.1.symm.trans ht
        · rw [hgone.2, hr] at hr'
          cases hr'
      · exact h
    | receive i => cases i <;> cases ha
    | _ => cases ha
  · obtain ⟨ht, hr⟩ : SamePlace l (l.step e) (.caller task) := step_others ha
    exact ⟨fun t h' => h.tasks t (ht.symm.trans h'), fun r h' => h.results r (hr.symm.trans h')⟩

theorem run (h : l.Leaving task) (hl : l.InTurn task) {events : List Event}
    (he : ∀ e ∈ events, e.starts? = none) : (l.run events).Leaving task := by
  induction events using List.reverseRecOn with
  | nil => exact h
  | append_singleton events e ih =>
    have hbefore : ∀ e' ∈ events, e'.starts? = none := fun e' hm => he e' (by simp [hm])
    rw [run_append]
    exact (ih hbefore).event (hl.run hbefore).once (he e (by simp))

end Leaving

theorem closed_startClose (l : Link) (task : Nat) : (l.startClose task).calls.closed =
    some (l.calls.closed.getD (.closed "client closed")) := by
  have hcontinue : ∀ p : Link × Option Release,
      (continueClose task p).calls.closed = p.1.calls.closed := by
    rintro ⟨m, _ | stage⟩
    · simp only [continueClose, startJoin]
      split <;> rfl
    · rfl
  have hrelease : ∀ m : Link, (m.release (.caller task) .queued).1.calls.closed =
      m.calls.closed := by
    intro m
    unfold release
    repeat' split
    all_goals rfl
  rw [startClose, hcontinue, hrelease]
  exact closed_teardown l _

/-! ## What a connection is asked for -/

section
variable (hl : l.InTurn task) (ht : l.tasks.lookup task = none) (hr : l.results.lookup task = none)
include hl ht hr

/-- A task is started when the ones before it are over. -/
theorem InTurn.startTask (o : Operation) : (l.startTask task o).InTurn task := by
  have hstep : l.step (.start task o) = l.startTask task o := if_neg (by simp [isUsed, ht, hr])
  rw [← hstep]
  exact hl.event fun n hn => (Option.some.inj hn).symm

variable {events : List Event} (he : ∀ e ∈ events, e.starts? = none)
include he

theorem close_gives_done {out : Result}
    (hout : ((l.startTask task .close).run events).results.lookup task = some out) :
    out = .ok .done :=
  ((Leaving.startClose hr).run (hl.startTask ht hr .close) he).results out hout

/-- A connection that was closed refuses what it is asked for, because it is closed. -/
theorem closed_connection_refuses {text : String} (hc : l.calls.closed = some (.closed text))
    (hdrop : .drop task ∉ events) {o : Operation} (ho : o ≠ .close) {out : Result}
    (hout : ((l.startTask task o).run events).results.lookup task = some out) :
    ∃ why, out = .error (.closed why) := by
  have hstarted := hl.startTask ht hr o
  have hatOnce : ∀ why, l.startTask task o = l.finish task (.error (.closed why)) →
      ∃ why, out = .error (.closed why) := by
    intro why hw
    have hnow : (l.startTask task o).results.lookup task = some (.error (.closed why)) := by
      rw [hw]
      exact Table.lookup_insert_self
    exact ⟨why, Option.some.inj (hout.symm.trans (hstarted.result_kept hnow he))⟩
  cases o with
  | call method params token => exact hatOnce text (startTask_call hc task method params token)
  | callAndWait method params token =>
    have hclosed : (l.startTask task (.callAndWait method params token)).calls.closed =
        some (.closed text) := by
      show (l.ensureJobs task method params token).calls.closed = _
      rcases ensureJobs_of_closed hc with ⟨hs, -⟩ | ⟨s, hs⟩ <;> rw [hs] <;> exact hc
    have hdenied : (l.startTask task (.callAndWait method params token)).Denied task
        (.closed text) := Denied.ensureJobs hc hr
    cases hdenied.run hstarted.inv hclosed hdrop with
    | waiting _ hnone => cases hnone.symm.trans hout
    | told _ hsome => exact ⟨text, Option.some.inj (hout.symm.trans hsome)⟩
  | subscribe collection filter => exact hatOnce _ (startSubscribe_of_closed hc hl.inv collection filter)
  | close => exact absurd rfl ho

end

end ServerLink.Link
