import ServerLink.Proofs.Calls.Correlation
import ServerLink.Proofs.Link.Hands

/-!
# Turns

Each event of a connection is the turn of one actor (`step_turn`), or brings something to what the
actors share: a frame, the act of a subscriber, or the end (`step_shared`).
-/

namespace ServerLink.Link

/-- Whose turn it is. What comes from outside is nobody's. -/
def Event.actor? : Event → Option Actor
  | .start task _ | .handshake task _ | .resume task _ _ | .drop task => some (.caller task)
  | .receive (.goodbye _) | .receive (.failed _) | .receive .ended => some .reader
  | .stopReading | .resumeReader _ => some .reader
  | .startProbe | .tick | .resumeProbe _ _ | .probeLate => some .probe
  | .receive (.text _) | .receive (.binary _) | .receive .control => none
  | .fire _ | .subscriber _ _ | .teardown _ => none

/-- What an event brings to what the actors share that is nobody's turn. -/
inductive Brings (l : Link) : Event → Op → Prop
  | act (s : Subscription) (act : Fanout.Act) : Brings l (.subscriber s act) (.act s act)
  | teardown (reason : LinkError) : Brings l (.teardown reason) (.teardown reason)
  | frame {i : Inbound} {text : String} {o : Op} (hr : l.reader = .running)
      (hi : i.frame? = some text) (ho : Op.ofText? text = some o) : Brings l (.receive i) o

variable {l m n : Link} {a : Actor} {x : Exchange} {h k : Hand} {task : Nat}

/-! ## Places -/

theorem Quiet.place (hcalls : m.calls = l.calls) (hfanout : m.fanout = l.fanout)
    (hslots : m.slots = l.slots) (hline : m.line = l.line) (hjobs : m.jobStream = l.jobStream)
    (hothers : ∀ b, b ≠ a → SamePlace l m b) : Deeds a (l, h) (m, h) :=
  (Deed.quiet ⟨hcalls, hfanout, hslots, hline, hjobs, hothers⟩).deeds

theorem sent_deeds (l : Link) (frame : String) :
    Deeds a (l, h) ({ l with sent := l.sent ++ [frame] }, h) :=
  Quiet.place rfl rfl rfl rfl rfl fun b _ => SamePlace.refl l b

theorem reader_deeds (l : Link) (s : Reader.State) :
    Deeds .reader (l, h) ({ l with reader := s }, h) := by
  refine Quiet.place rfl rfl rfl rfl rfl fun b hb => ?_
  cases b with
  | reader => exact absurd rfl hb
  | probe => rfl
  | caller task => exact ⟨rfl, rfl⟩

theorem probe_deeds (l : Link) (s : Probe.State) :
    Deeds .probe (l, h) ({ l with probe := s }, h) := by
  refine Quiet.place rfl rfl rfl rfl rfl fun b hb => ?_
  cases b with
  | reader => rfl
  | probe => exact absurd rfl hb
  | caller task => exact ⟨rfl, rfl⟩

theorem setTask_deeds (l : Link) (task : Nat) (t : Task) :
    Deeds (.caller task) (l, h) (l.setTask task t, h) := by
  refine Quiet.place rfl rfl rfl rfl rfl fun b hb => ?_
  cases b with
  | caller n =>
    have hn : n ≠ task := fun he => hb (by rw [he])
    exact ⟨Table.lookup_insert_ne hn, rfl⟩
  | _ => rfl

theorem eraseTask_deeds (l : Link) (task : Nat) :
    Deeds (.caller task) (l, h) ({ l with tasks := Table.erase l.tasks task }, h) := by
  refine Quiet.place rfl rfl rfl rfl rfl fun b hb => ?_
  cases b with
  | caller n =>
    have hn : n ≠ task := fun he => hb (by rw [he])
    exact ⟨Table.lookup_erase_ne hn, rfl⟩
  | _ => rfl

theorem hand_setTask (l : Link) (task : Nat) (t : Task) :
    (l.setTask task t).hand (.caller task) = t.hand := by
  show (((Table.insert l.tasks task t).lookup task).map Task.hand).getD {} = t.hand
  rw [Table.lookup_insert_self]
  rfl

theorem hand_of_lookup {t : Task} (ht : l.tasks.lookup task = some t) :
    l.hand (.caller task) = t.hand := by simp [hand, ht]

theorem hand_of_lookup_none (ht : l.tasks.lookup task = none) : l.hand (.caller task) = {} := by
  simp [hand, ht]

theorem hand_erase (l : Link) (task : Nat) :
    ({ l with tasks := Table.erase l.tasks task }).hand (.caller task) = {} :=
  hand_of_lookup_none Table.lookup_erase_self

/-- A task that is over has nothing in hand. -/
theorem finish_deeds (l : Link) (task : Nat) (r : Result) :
    Deeds (.caller task) (l, {}) (l.finish task r, (l.finish task r).hand (.caller task)) := by
  rw [show (l.finish task r).hand (.caller task) = {} from hand_erase l task]
  refine Quiet.place rfl rfl rfl rfl rfl fun b hb => ?_
  cases b with
  | caller n =>
    have hn : n ≠ task := fun he => hb (by rw [he])
    exact ⟨Table.lookup_erase_ne hn, Table.lookup_insert_ne hn⟩
  | _ => rfl

/-! ## Calls -/

theorem enter_deeds (hx : x.stage = .queued) :
    Deeds a (l, h.making x) ((l.enter a x).1, h.after (l.enter a x).2) := by
  unfold enter
  split
  · split
    · have hw : h.after (.going { x with stage := .writing }) = h.making x := by
        simp [Hand.after, Hand.making, hx]
      rw [hw]
      exact sent_deeds l x.frame
    · exact Deed.leave.deeds.trans (Deed.forget rfl).deeds
  · exact .refl

theorem begin_deeds {method : String} {params : Json} {kind : Call.Kind} (hcall : h.call = none)
    (hline : h.inLine = false) :
    Deeds a (l, h)
      ((l.begin a method params kind).1, h.after (l.begin a method params kind).2) := by
  have hdone : h.done = h := by
    obtain ⟨_, _, _, _⟩ := h
    cases hcall
    cases hline
    rfl
  unfold begin
  split
  · rw [Hand.after, hdone]
    exact .refl
  · rename_i id calls hr
    simp only [register_eq_perform hr]
    obtain ⟨hc, rfl, -⟩ := Calls.register_eq_ok hr
    have hreg : Deeds a (l, h) (l.perform (.register kind),
      { h with call := some (l.calls.nextId, kind) }) := (Deed.register kind hc hcall).deeds
    split
    · refine hreg.trans ?_
      rw [Hand.after]
      have hforget : h.done = { h with call := none } := by rw [Hand.done, hline]
      rw [hforget]
      exact (Deed.forget rfl).deeds
    · have hjoin : Deeds a _ _ := (Deed.join (l := l.perform (.register kind))
        (h := { h with call := some (l.calls.nextId, kind) }) hline).deeds
      exact (hreg.trans hjoin).trans
        (enter_deeds (h := h) (x := ⟨l.calls.nextId, method, kind, _, .queued⟩) rfl)

theorem await_deeds (hx : x.stage = .waiting) (c : Cancellation) (w : Wakeup) :
    Deeds a (l, h.making x) ((l.await x c w).1, h.after (l.await x c w).2) := by
  have hdone : h.done = { h.making x with call := none } := by
    simp [Hand.done, Hand.making, hx]
  have hforget : ∀ o, Deeds a (l, h.making x) (l.forget x.id, h.after (.over o)) := by
    intro o
    rw [Hand.after, hdone]
    exact (Deed.forget rfl).deeds
  unfold await
  split
  · exact hforget _
  · split
    · exact hforget _
    · split
      · exact hforget _
      · split
        · exact hforget _
        · exact .refl

theorem failWrite_deeds (reason : String) :
    Deeds a (l, h.making x) ((l.failWrite a x reason).1, h.after (l.failWrite a x reason).2) :=
  (Deed.leave.deeds.trans (Deed.teardown _ (.transport a reason)).deeds).trans
    (Deed.forget rfl).deeds

theorem leaving_deeds : Deeds a (l, h.making x)
    (l.leaveLine a, h.making { x with stage := .waiting }) := by
  have hm : h.making { x with stage := .waiting } = { h.making x with inLine := false } := by
    simp [Hand.making]
  rw [hm]
  exact Deed.leave.deeds

theorem resume_deeds (c : Cancellation) (w : Wakeup) :
    Deeds a (l, h.making x) ((l.resume a x c w).1, h.after (l.resume a x c w).2) := by
  unfold resume
  split
  · rename_i hx
    exact enter_deeds hx
  · rename_i hx
    split
    · exact leaving_deeds.trans (await_deeds rfl c .nothing)
    · exact failWrite_deeds _
    · exact failWrite_deeds _
    · exact .refl
    · exact .refl
  · rename_i hx
    exact await_deeds hx c w

theorem abandon_deeds : Deeds a (l, h.making x) (l.abandon a x, h.done) :=
  Deed.leave.deeds.trans (Deed.forget rfl).deeds

/-! ## Tasks -/

/-- `m` is what comes of a task's turn that has got to `l`, with this in hand. -/
def TaskTurn (task : Nat) (l : Link) (h : Hand) (m : Link) : Prop :=
  Deeds (.caller task) (l, h) (m, m.hand (.caller task))

theorem TaskTurn.after (hd : Deeds (.caller task) (l, h) (m, k)) (ht : TaskTurn task m k n) :
    TaskTurn task l h n := hd.trans ht

theorem setTask_turn {t : Task} (ht : t.hand = h) : TaskTurn task l h (l.setTask task t) := by
  rw [TaskTurn, hand_setTask, ht]
  exact setTask_deeds l task t

theorem proceed_turn {p : Link × Exchange.Progress} {going : Exchange → Task}
    {next : Link → Outcome → Link} (hp : Deeds (.caller task) (l, k) (p.1, h.after p.2))
    (hgoing : ∀ x, (going x).hand = h.making x)
    (hnext : ∀ m o, TaskTurn task m h.done (next m o)) :
    TaskTurn task l k (proceed task p going next) := by
  obtain ⟨m, r⟩ := p
  rcases r with x | o
  · exact TaskTurn.after hp (setTask_turn (hgoing x))
  · exact TaskTurn.after hp (hnext m o)

variable {method : String} {params : Json} {kind : Call.Kind} {token : Option Nat}

theorem finishCall_turn (m : Link) (o : Outcome) : TaskTurn task m {} (finishCall task m o) :=
  finish_deeds m task _

theorem startJob_turn (l : Link) : TaskTurn task l {} (l.startJob task method params token) :=
  proceed_turn (begin_deeds rfl rfl) (fun _ => rfl) finishCall_turn

theorem jobsAnswered_turn (m : Link) (o : Outcome) :
    TaskTurn task m { asks := true } (jobsAnswered task method params token m o) := by
  have hlearn : ∀ s, (∀ t, s ≠ .asking t) → Deeds (.caller task) (m, { asks := true })
      ({ m with jobStream := s }, {}) := fun s hs => (Deed.learn s rfl hs).deeds
  unfold jobsAnswered
  split
  · exact TaskTurn.after (hlearn .unasked (by simp)) (finish_deeds _ task _)
  · split
    · exact TaskTurn.after (hlearn .live (by simp)) (startJob_turn _)
    · exact TaskTurn.after (hlearn .unasked (by simp)) (finish_deeds _ task _)

theorem ensureJobs_turn (l : Link) :
    TaskTurn task l {} (l.ensureJobs task method params token) := by
  unfold ensureJobs
  split
  · exact startJob_turn l
  · exact setTask_turn rfl
  · rename_i hj
    have hask : Deeds (.caller task) (l, {})
        ({ l with jobStream := .asking task }, { asks := true }) := (Deed.ask rfl hj).deeds
    exact proceed_turn (h := { asks := true }) (hask.trans (begin_deeds rfl rfl)) (fun _ => rfl)
      jobsAnswered_turn

theorem subscribeAnswered_turn {s : Subscription} (m : Link) (o : Outcome) :
    TaskTurn task m { subscription := some s } (subscribeAnswered task s m o) := by
  have hdiscard : Deeds (.caller task) (m, { subscription := some s })
      ({ m with fanout := m.fanout.discard s }, {}) := (Deed.discard rfl).deeds
  unfold subscribeAnswered
  split
  · exact TaskTurn.after hdiscard (finish_deeds _ task _)
  · split
    · exact TaskTurn.after Deed.handOver.deeds (finish_deeds m task _)
    · exact TaskTurn.after hdiscard (finish_deeds _ task _)

theorem startSubscribe_turn (l : Link) (collection : String) (filter : Json) :
    TaskTurn task l {} (l.startSubscribe task collection filter) := by
  unfold startSubscribe
  split
  · exact finish_deeds l task _
  · rename_i s fanout hr
    simp only [subscribe_eq_perform hr]
    obtain ⟨hc, rfl⟩ := Fanout.register_eq_ok hr
    have hreg : Deeds (.caller task) (l, {}) _ :=
      (Deed.subscribe collection l.settings.capacity hc rfl).deeds
    exact proceed_turn (hreg.trans (begin_deeds rfl rfl)) (fun _ => rfl) subscribeAnswered_turn

theorem versionAnswered_turn (m : Link) (o : Outcome) :
    TaskTurn task m {} (versionAnswered task m o) := finish_deeds m task _

theorem loginAnswered_turn (m : Link) (o : Outcome) :
    TaskTurn task m {} (loginAnswered task m o) := by
  unfold loginAnswered
  split
  · exact finish_deeds m task _
  · exact proceed_turn (begin_deeds rfl rfl) (fun _ => rfl) versionAnswered_turn

theorem startHandshake_turn (l : Link) (c : Credentials) :
    TaskTurn task l {} (l.startHandshake task c) :=
  proceed_turn (begin_deeds rfl rfl) (fun _ => rfl) loginAnswered_turn

/-! ## Giving the write half back -/

theorem release_deeds (l : Link) (r : Release) : Deeds a (l, r.hand)
    ((l.release a r).1, ((l.release a r).2.map Release.hand).getD {}) := by
  unfold release
  split
  · split
    · split
      · have hshut : Deeds a (l, Release.queued.hand)
            ({ l with writable := false }, Release.queued.hand) :=
          Quiet.place rfl rfl rfl rfl rfl fun b _ => SamePlace.refl l b
        exact hshut.trans Deed.leave.deeds
      · exact Deed.leave.deeds
    · exact .refl
  · exact .refl

theorem startJoin_turn (l : Link) : TaskTurn task l {} (l.startJoin task) := by
  have hquiet : Deeds (.caller task) (l, {}) ({ l with joinable := false }, {}) :=
    Quiet.place rfl rfl rfl rfl rfl fun b _ => SamePlace.refl l b
  unfold startJoin
  split
  · exact TaskTurn.after hquiet (setTask_turn rfl)
  · exact TaskTurn.after hquiet (finish_deeds _ task _)

theorem continueClose_turn {p : Link × Option Release}
    (hp : Deeds (.caller task) (l, k) (p.1, (p.2.map Release.hand).getD {})) :
    TaskTurn task l k (continueClose task p) := by
  obtain ⟨m, stage⟩ := p
  cases stage with
  | some stage => exact TaskTurn.after hp (setTask_turn rfl)
  | none => exact TaskTurn.after hp (startJoin_turn m)

theorem startClose_turn (l : Link) : TaskTurn task l {} (l.startClose task) :=
  TaskTurn.after ((Deed.teardown _ (.close task)).deeds.trans (Deed.join rfl).deeds)
    (continueClose_turn (release_deeds _ .queued))

theorem continueReader_deeds {p : Link × Option Release}
    (hp : Deeds .reader (l, k) (p.1, (p.2.map Release.hand).getD {})) :
    Deeds .reader (l, k) (continueReader p, (continueReader p).hand .reader) := by
  obtain ⟨m, stage⟩ := p
  cases stage with
  | some stage => exact hp.trans (reader_deeds m _)
  | none => exact hp.trans (reader_deeds m _)

theorem stopReader_deeds (l : Link) :
    Deeds .reader (l, {}) (l.stopReader, l.stopReader.hand .reader) :=
  (Deed.join rfl).deeds.trans (continueReader_deeds (release_deeds _ .queued))

theorem continueProbe_deeds {p : Link × Option Release}
    (hp : Deeds .probe (l, k) (p.1, (p.2.map Release.hand).getD {})) :
    Deeds .probe (l, k) (continueProbe p, (continueProbe p).hand .probe) := by
  obtain ⟨m, stage⟩ := p
  cases stage with
  | some stage => exact hp.trans (probe_deeds m _)
  | none => exact hp.trans (probe_deeds m _)

theorem probeFailed_deeds (l : Link) (failure : String) :
    Deeds .probe (l, {}) (l.probeFailed failure, (l.probeFailed failure).hand .probe) := by
  unfold probeFailed
  split
  · exact probe_deeds l .ended
  · exact ((Deed.teardown _ (.silence failure)).deeds.trans (Deed.join rfl).deeds).trans
      (continueProbe_deeds (release_deeds _ .queued))

theorem continueProbing_deeds {p : Link × Exchange.Progress}
    (hp : Deeds .probe (l, k) (p.1, ({} : Hand).after p.2)) :
    Deeds .probe (l, k) (continueProbing p, (continueProbing p).hand .probe) := by
  obtain ⟨m, r⟩ := p
  refine hp.trans ?_
  rcases r with x | o
  · exact probe_deeds m (.asking x)
  · show Deeds .probe (m, {}) (m.probeAnswered o, (m.probeAnswered o).hand .probe)
    unfold probeAnswered
    split
    · split
      · exact probe_deeds m .resting
      · exact probeFailed_deeds m _
    · exact probeFailed_deeds m _

/-! ## Going on with a call -/

/-- Where a task gets with what has become of its call. -/
def goOnWith (task : Nat) (p : Link × Exchange.Progress) : Task → Link
  | .call _ token => proceed task p (.call · token) (finishCall task)
  | .askJobs _ method params token =>
    proceed task p (.askJobs · method params token) (jobsAnswered task method params token)
  | .subscribe s _ => proceed task p (.subscribe s) (subscribeAnswered task s)
  | .login _ => proceed task p .login (loginAnswered task)
  | .readVersion _ => proceed task p .readVersion (versionAnswered task)
  | .awaitJobs _ _ _ | .close _ | .join => p.1

/-- What is asked of a task. Only a call by itself can be cancelled. -/
def cancellationOf (l : Link) (eager : Bool) : Task → Cancellation
  | .call _ token => cancellation (l.isFired token) eager
  | .askJobs _ _ _ _ | .subscribe _ _ | .login _ | .readVersion _ | .awaitJobs _ _ _ | .close _
  | .join => .no

theorem resumeTask_eq {t : Task} (hx : t.exchange? = some x) (w : Wakeup) (eager : Bool) :
    l.resumeTask task t w eager =
      goOnWith task (l.resume (.caller task) x (l.cancellationOf eager t) w) t := by
  cases t <;> cases hx <;> rfl

theorem goOnWith_turn {t : Task} (task : Nat) (hx : t.exchange? = some x) :
    ∃ h : Hand, t.hand = h.making x ∧ ∀ {l k p}, Deeds (.caller task) (l, k) (p.1, h.after p.2) →
      TaskTurn task l k (goOnWith task p t) := by
  cases t with
  | call x token =>
    cases hx
    exact ⟨{}, rfl, fun hp => proceed_turn hp (fun _ => rfl) finishCall_turn⟩
  | askJobs x method params token =>
    cases hx
    exact ⟨{ asks := true }, rfl, fun hp => proceed_turn hp (fun _ => rfl) jobsAnswered_turn⟩
  | subscribe s x =>
    cases hx
    exact ⟨{ subscription := some s }, rfl,
      fun hp => proceed_turn hp (fun _ => rfl) subscribeAnswered_turn⟩
  | login x =>
    cases hx
    exact ⟨{}, rfl, fun hp => proceed_turn hp (fun _ => rfl) loginAnswered_turn⟩
  | readVersion x =>
    cases hx
    exact ⟨{}, rfl, fun hp => proceed_turn hp (fun _ => rfl) versionAnswered_turn⟩
  | awaitJobs _ _ _ | close _ | join => cases hx

/-! ## Events -/

theorem resumeTask_turn (l : Link) (task : Nat) (t : Task) (w : Wakeup) (eager : Bool) :
    TaskTurn task l t.hand (l.resumeTask task t w eager) ∨
      l.resumeTask task t w eager = l := by
  cases hx : t.exchange? with
  | some x =>
    obtain ⟨h, hh, hturn⟩ := goOnWith_turn task hx
    rw [resumeTask_eq hx, hh]
    exact .inl (hturn (resume_deeds _ w))
  | none =>
    cases t with
    | awaitJobs method params token => exact .inl (ensureJobs_turn l)
    | close stage =>
      cases stage with
      | queued => exact .inl (continueClose_turn (release_deeds l .queued))
      | closing =>
        dsimp only [resumeTask]
        split
        · exact .inr rfl
        · exact .inr rfl
        all_goals exact .inl (startJoin_turn l)
    | join =>
      dsimp only [resumeTask]
      split
      · exact .inl (finish_deeds l task _)
      · exact .inr rfl
    | _ => cases hx

theorem dropTask_turn (l : Link) (task : Nat) (t : Task) :
    TaskTurn task l t.hand (l.dropTask task t) := by
  have herase := fun h => eraseTask_deeds (h := h) l task
  have hgone : ∀ {m : Link}, Deeds (.caller task)
      ({ l with tasks := Table.erase l.tasks task }, t.hand) (m, {}) →
      m.tasks = Table.erase l.tasks task → TaskTurn task l t.hand m := by
    intro m hd hm
    have hh : m.hand (.caller task) = {} := hand_of_lookup_none (hm ▸ Table.lookup_erase_self)
    rw [TaskTurn, hh]
    exact (herase _).trans hd
  unfold dropTask
  cases t with
  | call x _ | login x | readVersion x => exact hgone abandon_deeds rfl
  | awaitJobs _ _ _ | join => exact hgone .refl rfl
  | askJobs x _ _ _ =>
    exact hgone (abandon_deeds.trans (Deed.learn .unasked rfl (by simp)).deeds) rfl
  | subscribe s x => exact hgone (abandon_deeds.trans (Deed.discard rfl).deeds) rfl
  | close stage =>
    cases stage with
    | queued => exact hgone Deed.leave.deeds rfl
    | closing => exact hgone Deed.leave.deeds rfl

theorem startTask_turn (l : Link) (task : Nat) (o : Operation) :
    TaskTurn task l {} (l.startTask task o) := by
  cases o with
  | call method params token =>
    exact proceed_turn (begin_deeds rfl rfl) (fun _ => rfl) finishCall_turn
  | callAndWait method params token => exact ensureJobs_turn l
  | subscribe collection filter => exact startSubscribe_turn l collection filter
  | close => exact startClose_turn l

theorem lookup_of_not_isUsed (hu : ¬ l.isUsed task = true) : l.tasks.lookup task = none := by
  cases ht : l.tasks.lookup task with
  | none => rfl
  | some t => simp [isUsed, ht] at hu

theorem start_turn {m : Link} (hu : ¬ l.isUsed task = true) (ht : TaskTurn task l {} m) :
    Turn (.caller task) l m := by
  rw [Turn, hand_of_lookup_none (lookup_of_not_isUsed hu)]
  exact ht

theorem probe_turn {m : Link} {s : Probe.State} (hp : l.probe = s)
    (hd : Deeds .probe (l, s.hand) (m, m.hand .probe)) : Turn .probe l m := by
  rw [Turn, show l.hand .probe = s.hand from congrArg Probe.State.hand hp]
  exact hd

theorem reader_turn {m : Link} {s : Reader.State} (hr : l.reader = s)
    (hd : Deeds .reader (l, s.hand) (m, m.hand .reader)) : Turn .reader l m := by
  rw [Turn, show l.hand .reader = s.hand from congrArg Reader.State.hand hr]
  exact hd

theorem endReading_turn (hr : l.reader = .running) {reason : LinkError}
    (hc : Cause .reader reason) : Turn .reader l (l.teardown reason).stopReader :=
  reader_turn hr ((Deed.teardown reason hc).deeds.trans (stopReader_deeds _))

/-- **An event is a turn** of the actor that it is about. -/
theorem step_turn {e : Event} (ha : e.actor? = some a) : Turn a l (l.step e) := by
  cases e with
  | start task o =>
    cases ha
    dsimp only [step]
    split
    · exact .refl
    · rename_i hu
      exact start_turn hu (startTask_turn l task o)
  | handshake task c =>
    cases ha
    dsimp only [step]
    split
    · exact .refl
    · rename_i hu
      exact start_turn hu (startHandshake_turn l c)
  | resume task w eager =>
    cases ha
    dsimp only [step]
    split
    · rename_i t ht
      rcases resumeTask_turn l task t w eager with hturn | hsame
      · rw [Turn, hand_of_lookup ht]
        exact hturn
      · rw [hsame]
        exact .refl
    · exact .refl
  | drop task =>
    cases ha
    dsimp only [step]
    split
    · rename_i t ht
      rw [Turn, hand_of_lookup ht]
      exact dropTask_turn l task t
    · exact .refl
  | receive i =>
    dsimp only [step]
    cases i with
    | goodbye _ | failed _ | ended =>
      cases ha
      split
      · rename_i hr
        exact endReading_turn hr (by constructor)
      · exact .refl
    | text _ | binary _ | control => cases ha
  | stopReading =>
    cases ha
    dsimp only [step]
    split
    · rename_i hs
      have hr : l.reader = .running := by simpa using (Bool.and_eq_true_iff.1 hs).1
      exact reader_turn hr (stopReader_deeds l)
    · exact .refl
  | resumeReader w =>
    cases ha
    dsimp only [step]
    split
    · exact .refl
    · exact .refl
    · rename_i hr
      exact reader_turn hr (continueReader_deeds (release_deeds l .queued))
    · rename_i hr
      split
      · exact .refl
      · exact .refl
      all_goals exact reader_turn hr (reader_deeds l .ended)
  | startProbe =>
    cases ha
    dsimp only [step]
    split
    · rename_i hs
      have hp : l.probe = .off := by simpa using (Bool.and_eq_true_iff.1 hs).1
      exact probe_turn hp (probe_deeds l .resting)
    · exact .refl
  | tick =>
    cases ha
    dsimp only [step]
    split
    · rename_i hp
      exact probe_turn hp (continueProbing_deeds (begin_deeds rfl rfl))
    · exact .refl
  | resumeProbe w eager =>
    cases ha
    dsimp only [step]
    split
    · exact .refl
    · exact .refl
    · rename_i hp
      split
      · exact probe_turn hp (probe_deeds l .ended)
      · exact .refl
    · rename_i x hp
      exact probe_turn hp (continueProbing_deeds (resume_deeds _ w))
    · rename_i hp
      exact probe_turn hp (continueProbe_deeds (release_deeds l .queued))
    · rename_i hp
      split
      · exact .refl
      · exact .refl
      all_goals exact probe_turn hp (probe_deeds l .ended)
  | probeLate =>
    cases ha
    dsimp only [step]
    split
    · rename_i x seconds hp _
      exact probe_turn hp (abandon_deeds.trans (probeFailed_deeds _ _))
    · exact .refl
  | fire _ | subscriber _ _ | teardown _ => cases ha

/-- An event that is nobody's turn brings one thing, or only cancels. -/
theorem step_shared {e : Event} (ha : e.actor? = none) :
    (∃ o, Brings l e o ∧ l.step e = l.perform o) ∨
      ∃ fired, l.step e = { l with fired } := by
  cases e with
  | fire token => exact .inr ⟨_, rfl⟩
  | subscriber s act => exact .inl ⟨_, .act s act, rfl⟩
  | teardown reason => exact .inl ⟨_, .teardown reason, rfl⟩
  | receive i =>
    have hframe : ∀ text, i.frame? = some text → l.receive i = l.dispatch text →
        l.reader = .running →
        (∃ o, Brings l (.receive i) o ∧ l.receive i = l.perform o) ∨
          ∃ fired, l.receive i = { l with fired } := by
      intro text hi hd hr
      rw [hd, dispatch_eq]
      cases ho : Op.ofText? text with
      | none => exact .inr ⟨l.fired, rfl⟩
      | some o => exact .inl ⟨o, .frame hr hi ho, rfl⟩
    dsimp only [step]
    split
    · rename_i hr
      cases i with
      | text frame => exact hframe frame rfl rfl hr
      | binary bytes =>
        cases hd : Text.decode? bytes with
        | none => exact .inr ⟨l.fired, by simp only [receive, hd]⟩
        | some frame => exact hframe frame hd (by simp only [receive, hd]) hr
      | control => exact .inr ⟨l.fired, rfl⟩
      | goodbye _ | failed _ | ended => cases ha
    · exact .inr ⟨l.fired, rfl⟩
  | _ => cases ha

/-- Whoever's turn it is not stays where they stand. -/
theorem step_others {e : Event} (ha : e.actor? ≠ some a) : SamePlace l (l.step e) a := by
  cases hactor : e.actor? with
  | some b => exact Deeds.others (step_turn hactor) fun hab => ha (by rw [hactor, hab])
  | none =>
    rcases step_shared (l := l) hactor with ⟨op, -, hs⟩ | ⟨fired, hs⟩ <;> rw [hs]
    · exact samePlace_perform l op a
    · exact SamePlace.refl l a

end ServerLink.Link
