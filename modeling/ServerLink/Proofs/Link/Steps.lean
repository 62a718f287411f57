import ServerLink.Proofs.Link.Moves

/-!
# Events of a connection

Each event of a connection is some moves, unless it is a frame of the server, which is one
operation (`step_moves`). From this follow the invariant of every run (`Reachable.inv`), and that a
task is told of the end of a connection that is open only if its call lost its place (`Lost`).
-/

namespace ServerLink

/-- The call that a task is making. -/
def Task.exchange? : Task → Option Exchange
  | .call x _ | .askJobs x _ _ _ | .subscribe _ x | .login x | .readVersion x => some x
  | .awaitJobs _ _ _ | .close _ | .join => none

/-- The frame that comes as a text, or as bytes that are one. -/
def Inbound.frame? : Inbound → Option String
  | .text frame => some frame
  | .binary bytes => Text.decode? bytes
  | .goodbye _ | .control | .failed _ | .ended => none

namespace Link

/-- The slot of the call that a task is making was given up. -/
def Lost (l : Link) (task : Nat) : Prop :=
  ∃ t x, l.tasks.lookup task = some t ∧ t.exchange? = some x ∧
    l.slots.lookup x.id = some .abandoned

/-- The outcome says that the connection is closed only if it is, or the task is lost. -/
def Honest (lost : Nat → Prop) (task : Nat) (l : Link) (o : Outcome) : Prop :=
  ∀ reason, o = .error (.closed reason) → l.isOpen = true → lost task

variable {lost : Nat → Prop} {l : Link} {a : Actor} {x : Exchange}

/-! ## The parts of a call -/

theorem forget_moves (l : Link) (id : Nat) : Moves lost l (l.forget id) :=
  (Move.op (.cancel id) rfl).moves

theorem teardown_moves (l : Link) (reason : LinkError) : Moves lost l (l.teardown reason) :=
  (Move.op (.teardown reason) rfl).moves

theorem joinLine_moves (l : Link) (a : Actor) : Moves lost l (l.joinLine a) :=
  (Move.line _).moves

theorem leaveLine_moves (l : Link) (a : Actor) : Moves lost l (l.leaveLine a) :=
  (Move.line _).moves

theorem enter_moves (l : Link) (a : Actor) (x : Exchange) : Moves lost l (l.enter a x).1 := by
  unfold enter
  split
  · split
    · exact (Move.send x.frame).moves
    · exact (leaveLine_moves l a).trans (forget_moves _ x.id)
  · exact .refl

/-- Whoever finds the write half gone finds the connection closed. -/
theorem enter_over (h : l.Inv) {o : Outcome} (ho : (l.enter a x).2 = .over o) :
    (l.enter a x).1.isOpen = false := by
  have hclosed : l.writable = false → l.isOpen = false := fun hw => by
    have hs := h.writable hw
    rw [h.stopped] at hs
    simpa [isOpen] using hs
  have hm : (l.enter a x).1.isOpen = true → l.isOpen = true :=
    (enter_moves l a x : Moves (fun _ => True) l _).isOpen
  cases hw : l.writable with
  | false =>
    rw [← Bool.not_eq_true]
    exact fun hopen => by rw [hclosed hw] at hm; cases hm hopen
  | true =>
    unfold enter at ho
    simp only [hw, ↓reduceIte] at ho
    split at ho <;> cases ho

variable {method : String} {params : Json} {kind : Call.Kind}

theorem begin_moves (l : Link) (a : Actor) (method : String) (params : Json) (kind : Call.Kind) :
    Moves lost l (l.begin a method params kind).1 := by
  unfold begin
  split
  · exact .refl
  · rename_i id calls hr
    simp only [register_eq_perform hr]
    have hreg : Moves lost l (l.perform (.register kind)) := (Move.op _ rfl).moves
    split
    · exact hreg.trans (forget_moves _ id)
    · exact (hreg.trans (joinLine_moves _ a)).trans (enter_moves _ a _)

/-- A call that is begun on an open connection is not told that it is closed. -/
theorem begin_honest (h : l.Inv) {task : Nat} {o : Outcome}
    (ho : (l.begin a method params kind).2 = .over o) :
    Honest lost task (l.begin a method params kind).1 o := by
  rintro reason rfl hopen
  unfold begin at ho hopen
  split at ho
  · rename_i e hr
    cases hc : l.calls.closed with
    | none => rw [Calls.register_ok hc] at hr; cases hr
    | some why => simp only [hr, isOpen_iff, hc] at hopen; cases hopen
  · rename_i id calls hr
    rw [hr] at hopen
    dsimp only at ho hopen
    simp only [register_eq_perform hr] at ho hopen
    split at ho
    · cases ho
    · rename_i frame hf
      rw [hf] at hopen
      have hinv : ((l.perform (.register kind)).joinLine a).Inv :=
        (h.perform (.register kind)).moves (joinLine_moves _ a : Moves lost _ _)
      rw [enter_over hinv ho] at hopen
      cases hopen

theorem await_moves (l : Link) (x : Exchange) (c : Cancellation) (w : Wakeup) :
    Moves lost l (l.await x c w).1 := by
  unfold await
  repeat' split
  all_goals first | exact .refl | exact forget_moves l x.id

/-- A call that waits is told that an open connection is closed only if its slot was given up. -/
theorem await_closed (h : l.Inv) {c : Cancellation} {w : Wakeup} {reason : String}
    (ho : (l.await x c w).2 = .over (.error (.closed reason)))
    (hopen : (l.await x c w).1.isOpen = true) : l.slots.lookup x.id = some .abandoned := by
  have hl := (await_moves l x c w : Moves (fun _ => True) l _).isOpen hopen
  unfold await endOf? at ho
  split at ho
  · cases ho
  · split at ho
    · rename_i outcome he
      cases hs : l.slots.lookup x.id with
      | none => rw [hs] at he; cases he
      | some how =>
        cases how with
        | abandoned => rfl
        | filled o =>
          rw [hs, Option.map_some, Option.some.injEq] at he
          simp only [Exchange.Progress.over.injEq] at ho
          have he : o = .error (.closed reason) := he.trans ho
          rw [he] at hs
          exact absurd hs (h.unclosed (isOpen_iff.1 hl) x.id reason)
    · split at ho
      · cases ho
      · split at ho <;> cases ho

theorem failWrite_moves (l : Link) (a : Actor) (x : Exchange) (reason : String) :
    Moves lost l (l.failWrite a x reason).1 :=
  ((leaveLine_moves l a).trans (teardown_moves _ _)).trans (forget_moves _ x.id)

theorem resume_moves (l : Link) (a : Actor) (x : Exchange) (c : Cancellation) (w : Wakeup) :
    Moves lost l (l.resume a x c w).1 := by
  unfold resume
  split
  · exact enter_moves l a x
  · split
    · exact (leaveLine_moves l a).trans (await_moves _ _ c .nothing)
    · exact failWrite_moves l a x _
    · exact failWrite_moves l a x _
    · exact .refl
    · exact .refl
  · exact await_moves l x c w

theorem resume_closed (h : l.Inv) {c : Cancellation} {w : Wakeup} {reason : String}
    (ho : (l.resume a x c w).2 = .over (.error (.closed reason)))
    (hopen : (l.resume a x c w).1.isOpen = true) : l.slots.lookup x.id = some .abandoned := by
  unfold resume at ho hopen
  split at ho
  · rename_i hstage
    simp only [hstage] at hopen
    rw [enter_over h ho] at hopen
    cases hopen
  · rename_i hstage
    simp only [hstage] at hopen
    split at ho
    · have hinv : (l.leaveLine a).Inv := h.moves (leaveLine_moves l a : Moves (fun _ => True) l _)
      exact await_closed (l := l.leaveLine a) (x := { x with stage := .waiting }) hinv ho hopen
    · cases ho
    · cases ho
    · cases ho
    · cases ho
  · rename_i hstage
    simp only [hstage] at hopen
    exact await_closed h ho hopen

theorem abandon_moves (l : Link) (a : Actor) (x : Exchange) : Moves lost l (l.abandon a x) :=
  (leaveLine_moves l a).trans (forget_moves _ x.id)

/-! ## Tasks -/

section
variable {task : Nat} {o : Outcome} {token : Option Nat}

theorem finishCall_moves (ho : Honest lost task l o) : Moves lost l (finishCall task l o) := by
  refine (Move.finish task _ fun reason hr hopen => ?_).moves
  cases o with
  | ok v => cases hr
  | error e => cases hr; exact ho reason rfl hopen

theorem proceed_moves {p : Link × Exchange.Progress} {going : Exchange → Task}
    {next : Link → Outcome → Link} (hp : Moves lost l p.1)
    (hgoing : ∀ x stage, going x ≠ .close stage)
    (hnext : ∀ o, p.2 = .over o → Moves lost p.1 (next p.1 o)) :
    Moves lost l (proceed task p going next) := by
  obtain ⟨m, r⟩ := p
  rcases r with x | o
  · exact hp.trans (Move.setTask task _ fun stage ht => absurd ht (hgoing x stage)).moves
  · exact hp.trans (hnext o rfl)

theorem startJob_moves (h : l.Inv) : Moves lost l (l.startJob task method params token) :=
  proceed_moves (begin_moves l _ method params .job) (fun _ _ ht => by cases ht)
    fun _ ho => finishCall_moves (begin_honest h ho)

theorem jobsAnswered_moves (h : l.Inv) (ho : Honest lost task l o) :
    Moves lost l (jobsAnswered task method params token l o) := by
  unfold jobsAnswered
  split
  · refine (Move.jobStream .unasked).moves.trans
      (Move.finish task _ fun reason hr hopen => ?_).moves
    cases hr
    exact ho reason rfl hopen
  · have hlive : Moves lost l { l with jobStream := .live } := (Move.jobStream .live).moves
    split
    · exact hlive.trans (startJob_moves (h.moves hlive))
    · exact (Move.jobStream .unasked).moves.trans
        (Move.finish task _ fun _ hr _ => by cases hr).moves

theorem ensureJobs_moves (h : l.Inv) : Moves lost l (l.ensureJobs task method params token) := by
  unfold ensureJobs
  split
  · exact startJob_moves h
  · exact (Move.setTask task _ fun _ ht => by cases ht).moves
  · have hask : Moves lost l { l with jobStream := .asking task } := (Move.jobStream _).moves
    have hinv := h.moves hask
    have hbegin : Moves lost _ _ := begin_moves { l with jobStream := .asking task }
      (.caller task) Method.subscribe (.array [.string jobCollection]) .plain
    exact proceed_moves (hask.trans hbegin) (fun _ _ ht => by cases ht)
      fun _ ho => jobsAnswered_moves (hinv.moves hbegin) (begin_honest hinv ho)

theorem discard_moves (l : Link) (s : Subscription) :
    Moves lost l { l with fanout := l.fanout.discard s } := (Move.op (.act s .discard) rfl).moves

theorem subscribeAnswered_moves {s : Subscription} (ho : Honest lost task l o) :
    Moves lost l (subscribeAnswered task s l o) := by
  unfold subscribeAnswered
  split
  · refine (discard_moves l s).trans (Move.finish task _ fun reason hr hopen => ?_).moves
    cases hr
    exact ho reason rfl hopen
  · split
    · exact (Move.finish task _ fun _ hr _ => by cases hr).moves
    · exact (discard_moves l s).trans (Move.finish task _ fun _ hr _ => by cases hr).moves

theorem startSubscribe_moves (h : l.Inv) (collection : String) (filter : Json) :
    Moves lost l (l.startSubscribe task collection filter) := by
  unfold startSubscribe
  split
  · rename_i e hr
    refine (Move.finish task _ fun reason he hopen => ?_).moves
    have hf : l.fanout.closed = false := by
      rw [h.shut, isOpen_iff.1 hopen]
      rfl
    rw [Fanout.register_open hf] at hr
    cases hr
  · rename_i s fanout hr
    simp only [subscribe_eq_perform hr]
    have hreg : Moves lost l (l.perform (.subscribe collection l.settings.capacity)) :=
      (Move.op _ rfl).moves
    exact proceed_moves (hreg.trans (begin_moves _ _ _ _ _)) (fun _ _ ht => by cases ht)
      fun _ ho => subscribeAnswered_moves (begin_honest (h.moves hreg) ho)

theorem versionAnswered_moves (ho : Honest lost task l o) :
    Moves lost l (versionAnswered task l o) := by
  refine (Move.finish task _ fun reason hr hopen => ?_).moves
  cases o with
  | error e => cases hr; exact ho reason rfl hopen
  | ok v =>
    have hv : versionOf v ≠ .error (.closed reason) := by
      unfold versionOf
      repeat' split
      all_goals simp
    cases hw : versionOf v with
    | ok version =>
      have hr : (versionOf v).map Reply.version = .error (.closed reason) := hr
      rw [hw] at hr; cases hr
    | error e =>
      have hr : (versionOf v).map Reply.version = .error (.closed reason) := hr
      rw [hw] at hr hv; cases hr
      exact absurd rfl hv

theorem loginAnswered_moves (h : l.Inv) (ho : Honest lost task l o) :
    Moves lost l (loginAnswered task l o) := by
  unfold loginAnswered
  split
  · rename_i e he
    refine (Move.finish task _ fun reason hr hopen => ?_).moves
    cases hr
    unfold loginOutcome at he
    split at he
    · cases he
    · cases he
      exact ho reason rfl hopen
    · dsimp only at he
      split at he <;> cases he
  · exact proceed_moves (begin_moves l _ _ _ _) (fun _ _ ht => by cases ht)
      fun _ ho => versionAnswered_moves (begin_honest h ho)

theorem startHandshake_moves (h : l.Inv) (c : Credentials) :
    Moves lost l (l.startHandshake task c) := by
  have hbegin : Moves lost l _ :=
    begin_moves l (.caller task) Method.login (loginParams c) .plain
  exact proceed_moves hbegin (fun _ _ ht => by cases ht)
    fun _ ho => loginAnswered_moves (h.moves hbegin) (begin_honest h ho)

/-! ## Giving the write half back -/

/-- Whoever gives the write half back after the end, goes on from there. -/
theorem release_moves (hs : l.stopped = true) (r : Release) {next : Link × Option Release → Link}
    (hnext : ∀ m stage, m.stopped = true → Moves lost m (next (m, stage))) :
    Moves lost l (next (l.release a r)) := by
  unfold release
  split
  · split
    · split
      · exact ((Move.giveBack hs).moves.trans (leaveLine_moves _ a)).trans (hnext _ _ hs)
      · exact (leaveLine_moves l a).trans (hnext _ _ hs)
    · exact hnext l _ hs
  · exact hnext l _ hs

theorem teardown_stopped (l : Link) (reason : LinkError) : (l.teardown reason).stopped = true :=
  stopped_perform l (.teardown reason)

theorem startJoin_moves (l : Link) (task : Nat) : Moves lost l (l.startJoin task) := by
  unfold startJoin
  split
  · exact Move.joinable.moves.trans (Move.setTask task _ fun _ ht => by cases ht).moves
  · exact Move.joinable.moves.trans (Move.finish task _ fun _ hr _ => by cases hr).moves

theorem continueClose_moves (hs : l.stopped = true) (r : Release) :
    Moves lost l (continueClose task (l.release (.caller task) r)) := by
  refine release_moves hs r fun m stage hs => ?_
  cases stage with
  | some stage => exact (Move.setTask task _ fun _ _ => hs).moves
  | none => exact startJoin_moves m task

theorem startClose_moves (l : Link) (task : Nat) : Moves lost l (l.startClose task) := by
  have hs : ((l.teardown (.closed "client closed")).joinLine (.caller task)).stopped = true :=
    teardown_stopped l _
  exact ((teardown_moves l _).trans (joinLine_moves _ _)).trans (continueClose_moves hs .queued)

end

theorem continueReader_moves (hs : l.stopped = true) (r : Release) :
    Moves lost l (continueReader (l.release .reader r)) := by
  refine release_moves hs r fun m stage hs => ?_
  cases stage <;> exact (Move.reader _ hs).moves

theorem stopReader_moves (hs : l.stopped = true) : Moves lost l l.stopReader :=
  (joinLine_moves l .reader).trans (continueReader_moves (l := l.joinLine .reader) hs .queued)

theorem endReading_moves (l : Link) (reason : LinkError) :
    Moves lost l (l.teardown reason).stopReader :=
  (teardown_moves l reason).trans (stopReader_moves (teardown_stopped l reason))

theorem continueProbe_moves (hs : l.stopped = true) (r : Release) :
    Moves lost l (continueProbe (l.release .probe r)) := by
  refine release_moves hs r fun m stage hs => ?_
  cases stage <;> exact (Move.probe _ fun _ _ => hs).moves

theorem probeFailed_moves (l : Link) (failure : String) : Moves lost l (l.probeFailed failure) := by
  unfold probeFailed
  split
  · exact (Move.probe _ fun _ hp => by cases hp).moves
  · have hs : ((l.teardown (.closed ("liveness probe failed: " ++ failure))).joinLine
        .probe).stopped = true := teardown_stopped l _
    exact ((teardown_moves l _).trans (joinLine_moves _ .probe)).trans
      (continueProbe_moves hs .queued)

theorem continueProbing_moves {p : Link × Exchange.Progress} (hp : Moves lost l p.1) :
    Moves lost l (continueProbing p) := by
  obtain ⟨m, r⟩ := p
  refine hp.trans ?_
  rcases r with x | o
  · exact (Move.probe _ fun _ hs => by cases hs).moves
  · show Moves lost m (m.probeAnswered o)
    unfold probeAnswered
    split
    · split
      · exact (Move.probe _ fun _ hs => by cases hs).moves
      · exact probeFailed_moves m _
    · exact probeFailed_moves m _

/-! ## Events -/

/-- A task that goes on with a call is told that an open connection is closed only if it is
lost. -/
theorem resume_honest (h : l.Inv) {task : Nat} {t : Task} (ht : l.tasks.lookup task = some t)
    (hx : t.exchange? = some x) {c : Cancellation} {w : Wakeup} {o : Outcome}
    (ho : (l.resume a x c w).2 = .over o) : Honest l.Lost task (l.resume a x c w).1 o := by
  rintro reason rfl hopen
  exact ⟨t, x, ht, hx, resume_closed h ho hopen⟩

theorem resumeTask_moves (h : l.Inv) {task : Nat} {t : Task} (ht : l.tasks.lookup task = some t)
    (w : Wakeup) (eager : Bool) : Moves l.Lost l (l.resumeTask task t w eager) := by
  unfold resumeTask
  cases t with
  | call x token =>
    exact proceed_moves (resume_moves l _ x _ w) (fun _ _ hg => by cases hg)
      fun _ ho => finishCall_moves (resume_honest h ht rfl ho)
  | awaitJobs method params token => exact ensureJobs_moves h
  | askJobs x method params token =>
    have hr : Moves l.Lost l _ := resume_moves l (.caller task) x .no w
    exact proceed_moves hr (fun _ _ hg => by cases hg)
      fun _ ho => jobsAnswered_moves (h.moves hr) (resume_honest h ht rfl ho)
  | subscribe s x =>
    exact proceed_moves (resume_moves l _ x .no w) (fun _ _ hg => by cases hg)
      fun _ ho => subscribeAnswered_moves (resume_honest h ht rfl ho)
  | login x =>
    have hr : Moves l.Lost l _ := resume_moves l (.caller task) x .no w
    exact proceed_moves hr (fun _ _ hg => by cases hg)
      fun _ ho => loginAnswered_moves (h.moves hr) (resume_honest h ht rfl ho)
  | readVersion x =>
    exact proceed_moves (resume_moves l _ x .no w) (fun _ _ hg => by cases hg)
      fun _ ho => versionAnswered_moves (resume_honest h ht rfl ho)
  | close stage =>
    cases stage with
    | queued => exact continueClose_moves (h.closing task _ ht) .queued
    | closing =>
      dsimp only
      split
      · exact .refl
      · exact .refl
      all_goals exact startJoin_moves l task
  | join =>
    dsimp only
    split
    · exact (Move.finish task _ fun _ hr _ => by cases hr).moves
    · exact .refl

theorem dropTask_moves (l : Link) (task : Nat) (t : Task) : Moves lost l (l.dropTask task t) := by
  have hdrop : Moves lost l { l with tasks := Table.erase l.tasks task } :=
    (Move.dropTask task).moves
  unfold dropTask
  cases t with
  | call x _ | login x | readVersion x => exact hdrop.trans (abandon_moves _ _ x)
  | awaitJobs _ _ _ | join => exact hdrop
  | askJobs x _ _ _ =>
    exact (hdrop.trans (abandon_moves _ _ x)).trans (Move.jobStream .unasked).moves
  | subscribe s x => exact (hdrop.trans (abandon_moves _ _ x)).trans (discard_moves _ s)
  | close _ => exact hdrop.trans (leaveLine_moves _ _)

theorem startTask_moves (h : l.Inv) (task : Nat) (o : Operation) :
    Moves lost l (l.startTask task o) := by
  cases o with
  | call method params token =>
    exact proceed_moves (begin_moves l _ method params .plain) (fun _ _ hg => by cases hg)
      fun _ ho => finishCall_moves (begin_honest h ho)
  | callAndWait method params token => exact ensureJobs_moves h
  | subscribe collection filter => exact startSubscribe_moves h collection filter
  | close => exact startClose_moves l task

/-- What the reader takes is the end of the connection, or a frame, or nothing. -/
theorem receive_moves (l : Link) (i : Inbound) : Moves lost l (l.receive i) ∨
    ∃ text o, i.frame? = some text ∧ Op.ofText? text = some o ∧ l.receive i = l.perform o := by
  have hframe : ∀ text, i.frame? = some text → l.receive i = l.dispatch text →
      Moves lost l (l.receive i) ∨
        ∃ text o, i.frame? = some text ∧ Op.ofText? text = some o ∧
          l.receive i = l.perform o := by
    intro text hi hr
    rw [hr, dispatch_eq]
    cases ho : Op.ofText? text with
    | none => exact .inl .refl
    | some o => exact .inr ⟨text, o, hi, ho, rfl⟩
  cases i with
  | text frame => exact hframe frame rfl rfl
  | binary bytes =>
    cases hd : Text.decode? bytes with
    | none =>
      refine .inl ?_
      simp only [receive, hd]
      exact .refl
    | some frame => exact hframe frame hd (by simp only [receive, hd])
  | control => exact .inl .refl
  | goodbye reason => exact .inl (endReading_moves l _)
  | failed reason => exact .inl (endReading_moves l _)
  | ended => exact .inl (endReading_moves l _)

/-- **What an event does.** An event is some moves, or a frame of the server, which is one
operation. -/
theorem step_moves (h : l.Inv) (e : Event) : Moves l.Lost l (l.step e) ∨
    ∃ i text o, e = .receive i ∧ l.reader = .running ∧ i.frame? = some text ∧
      Op.ofText? text = some o ∧ l.step e = l.perform o := by
  cases e with
  | receive i =>
    dsimp only [step]
    split
    · rename_i hr
      rcases receive_moves l i with hm | ⟨text, o, hi, ho, hs⟩
      · exact .inl hm
      · exact .inr ⟨i, text, o, rfl, hr, hi, ho, hs⟩
    · exact .inl .refl
  | start task o =>
    left
    dsimp only [step]
    split
    · exact .refl
    · exact startTask_moves h task o
  | handshake task c =>
    left
    dsimp only [step]
    split
    · exact .refl
    · exact startHandshake_moves h c
  | resume task w eager =>
    left
    dsimp only [step]
    split
    · rename_i t ht
      exact resumeTask_moves h ht w eager
    · exact .refl
  | drop task =>
    left
    dsimp only [step]
    split
    · exact dropTask_moves l task _
    · exact .refl
  | fire token => exact .inl (Move.fire token).moves
  | subscriber s act => exact .inl (Move.op (.act s act) rfl).moves
  | stopReading =>
    left
    dsimp only [step]
    split
    · rename_i hs
      exact stopReader_moves (by simpa using (Bool.and_eq_true_iff.1 hs).2)
    · exact .refl
  | resumeReader w =>
    left
    dsimp only [step]
    split
    · exact .refl
    · exact .refl
    · rename_i hr
      exact continueReader_moves (h.reader (by rw [hr]; simp)) .queued
    · rename_i hr
      split
      · exact .refl
      · exact .refl
      all_goals exact (Move.reader _ (h.reader (by rw [hr]; simp))).moves
  | startProbe =>
    left
    dsimp only [step]
    split
    · exact (Move.probe _ fun _ hs => by cases hs).moves
    · exact .refl
  | tick =>
    left
    dsimp only [step]
    split
    · exact continueProbing_moves (begin_moves l _ _ _ _)
    · exact .refl
  | resumeProbe w eager =>
    left
    dsimp only [step]
    split
    · exact .refl
    · exact .refl
    · split
      · exact (Move.probe _ fun _ hs => by cases hs).moves
      · exact .refl
    · exact continueProbing_moves (resume_moves l _ _ _ w)
    · rename_i hp
      exact continueProbe_moves (h.probe _ hp) .queued
    · split
      · exact .refl
      · exact .refl
      all_goals exact (Move.probe _ fun _ hs => by cases hs).moves
  | probeLate =>
    left
    dsimp only [step]
    split
    · exact (abandon_moves l .probe _).trans (probeFailed_moves _ _)
    · exact .refl
  | teardown reason => exact .inl (teardown_moves l reason)

theorem closed_event {reason : LinkError} (h : l.Inv) (hc : l.calls.closed = some reason)
    (e : Event) : (l.step e).calls.closed = some reason := by
  rcases step_moves h e with hm | ⟨i, text, o, -, -, -, -, hs⟩
  · exact hm.closed hc
  · rw [hs]
    exact closed_perform_of_some hc o

theorem isOpen_event (h : l.Inv) {e : Event} (hopen : (l.step e).isOpen = true) :
    l.isOpen = true := by
  cases hc : l.calls.closed with
  | none => exact isOpen_iff.2 hc
  | some reason =>
    rw [isOpen_iff, closed_event h hc e] at hopen
    cases hopen

/-! ## Runs -/

theorem Inv.event (h : l.Inv) (e : Event) : (l.step e).Inv := by
  rcases step_moves h e with hm | ⟨i, text, o, -, -, -, -, hs⟩
  · exact h.moves hm
  · rw [hs]
    exact h.perform o

theorem Inv.run (h : l.Inv) (events : List Event) : (l.run events).Inv := by
  induction events generalizing l with
  | nil => exact h
  | cons e events ih => exact ih (h.event e)

theorem run_append (l : Link) (es fs : List Event) : l.run (es ++ fs) = (l.run es).run fs :=
  List.foldl_append ..

theorem closed_run {reason : LinkError} (h : l.Inv) (hc : l.calls.closed = some reason)
    (events : List Event) : (l.run events).calls.closed = some reason := by
  induction events generalizing l with
  | nil => exact hc
  | cons e events ih => exact ih (h.event e) (closed_event h hc e)

theorem Reachable.inv (h : l.Reachable) : l.Inv := by
  obtain ⟨settings, events, rfl⟩ := h
  exact (Inv.ofSettings settings).run events

end Link

end ServerLink
