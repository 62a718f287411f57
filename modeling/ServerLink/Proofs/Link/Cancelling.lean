import ServerLink.Proofs.Link.Slots

/-!
# Cancelling a task

A task that makes a call, or asks for job reports to make one, keeps the token that it was started
with. Once its own request is written, a token that has fired ends it the next time it goes on.
Before that it does not look at the token, and goes on as it would without
(`tokens_are_seen_once_written`).
-/

namespace ServerLink

/-- The token by which a task can be cancelled. -/
def Task.token? : Task → Option Nat
  | .call _ token | .awaitJobs _ _ token | .askJobs _ _ _ token => token
  | .subscribe _ _ | .login _ | .readVersion _ | .close _ | .join => none

def Operation.token? : Operation → Option Nat
  | .call _ _ token | .callAndWait _ _ token => token
  | .subscribe _ _ | .close => none

/-- The task has written the request of its call, at the latest as it goes on. -/
def Task.HasWritten (w : Wakeup) : Task → Prop
  | .call x _ => x.stage = .waiting ∨ x.stage = .writing ∧ w = .written
  | .awaitJobs _ _ _ | .askJobs _ _ _ _ => False
  | .subscribe _ _ | .login _ | .readVersion _ | .close _ | .join => False

namespace Link

/-- The connection as it would be if these tokens had fired, and no others. -/
def withFired (l : Link) (tokens : List Nat) : Link := { l with fired := tokens }

/-- The task is over, or can be cancelled by this token. -/
def KeepsToken (task : Nat) (token : Option Nat) (m : Link) : Prop :=
  ∀ t, m.tasks.lookup task = some t → t.token? = token

variable {l m : Link} {a : Actor} {x : Exchange} {t : Task} {task : Nat} {token : Option Nat}
  {method : String} {params : Json} {w : Wakeup} {tokens : List Nat}

/-! ## The token of a task -/

theorem KeepsToken.setTask (ht : t.token? = token) : KeepsToken task token (l.setTask task t) := by
  intro u hu
  have hu : (Table.insert l.tasks task t).lookup task = some u := hu
  rw [Table.lookup_insert_self] at hu
  rw [← Option.some.inj hu, ht]

theorem KeepsToken.gone (hm : m.tasks.lookup task = none) : KeepsToken task token m := by
  intro u hu
  rw [hm] at hu
  cases hu

theorem KeepsToken.finish (l : Link) (r : Result) : KeepsToken task token (l.finish task r) :=
  .gone Table.lookup_erase_self

theorem KeepsToken.proceed {p : Link × Exchange.Progress} {going : Exchange → Task}
    {next : Link → Outcome → Link} (hgoing : ∀ x, (going x).token? = token)
    (hnext : ∀ m o, KeepsToken task token (next m o)) :
    KeepsToken task token (proceed task p going next) := by
  obtain ⟨m, r⟩ := p
  rcases r with x | o
  · exact .setTask (hgoing x)
  · exact hnext m o

theorem KeepsToken.startJob (l : Link) :
    KeepsToken task token (l.startJob task method params token) :=
  .proceed (fun _ => rfl) fun m _ => .finish m _

theorem KeepsToken.jobsAnswered (m : Link) (o : Outcome) :
    KeepsToken task token (jobsAnswered task method params token m o) := by
  unfold Link.jobsAnswered
  split
  · exact .finish _ _
  · split
    · exact .startJob _
    · exact .finish _ _

theorem KeepsToken.ensureJobs (l : Link) :
    KeepsToken task token (l.ensureJobs task method params token) := by
  unfold Link.ensureJobs
  split
  · exact .startJob l
  · exact .setTask rfl
  · exact .proceed (fun _ => rfl) .jobsAnswered

theorem KeepsToken.startJoin (l : Link) : KeepsToken task none (l.startJoin task) := by
  unfold Link.startJoin
  split
  · exact .setTask rfl
  · exact .finish _ _

theorem KeepsToken.continueClose (p : Link × Option Release) :
    KeepsToken task none (continueClose task p) := by
  obtain ⟨m, stage⟩ := p
  cases stage with
  | some stage => exact .setTask rfl
  | none => exact .startJoin m

theorem KeepsToken.subscribeAnswered (s : Subscription) (m : Link) (o : Outcome) :
    KeepsToken task none (subscribeAnswered task s m o) := by
  unfold Link.subscribeAnswered
  split
  · exact .finish _ _
  · split <;> exact .finish _ _

theorem KeepsToken.loginAnswered (m : Link) (o : Outcome) :
    KeepsToken task none (loginAnswered task m o) := by
  unfold Link.loginAnswered
  split
  · exact .finish _ _
  · exact .proceed (fun _ => rfl) fun m _ => .finish m _

theorem KeepsToken.startTask (l : Link) (task : Nat) (o : Operation) :
    KeepsToken task o.token? (l.startTask task o) := by
  cases o with
  | call method params token => exact .proceed (fun _ => rfl) fun m _ => .finish m _
  | callAndWait method params token => exact .ensureJobs l
  | subscribe collection filter =>
    dsimp only [Link.startTask, startSubscribe, Operation.token?]
    split
    · exact .finish _ _
    · exact .proceed (fun _ => rfl) (.subscribeAnswered _)
  | close => exact .continueClose _

theorem KeepsToken.resumeTask (ht : l.tasks.lookup task = some t) (w : Wakeup) (eager : Bool) :
    KeepsToken task t.token? (l.resumeTask task t w eager) := by
  cases t with
  | call x token => exact .proceed (fun _ => rfl) fun m _ => .finish m _
  | awaitJobs method params token => exact .ensureJobs l
  | askJobs x method params token => exact .proceed (fun _ => rfl) .jobsAnswered
  | subscribe s x => exact .proceed (fun _ => rfl) (.subscribeAnswered s)
  | login x => exact .proceed (fun _ => rfl) .loginAnswered
  | readVersion x => exact .proceed (fun _ => rfl) fun m _ => .finish m _
  | close stage =>
    have hsame : KeepsToken task none l := fun u hu => by
      rw [ht] at hu
      cases hu
      rfl
    cases stage with
    | queued => exact .continueClose _
    | closing =>
      cases w with
      | nothing | late => exact hsame
      | written | writeFailed _ | writeTimedOut => exact .startJoin l
  | join =>
    dsimp only [Link.resumeTask]
    split
    · exact .finish _ _
    · intro u hu
      rw [ht] at hu
      cases hu
      rfl

/-- A task in hand keeps its token. -/
theorem token_event (ht : l.tasks.lookup task = some t) (e : Event) :
    KeepsToken task t.token? (l.step e) := by
  have hsame : ∀ m : Link, m.tasks.lookup task = l.tasks.lookup task →
      KeepsToken task t.token? m := by
    intro m hm u hu
    rw [hm, ht] at hu
    cases hu
    rfl
  by_cases ha : e.actor? = some (.caller task)
  · have hused : l.isUsed task = true := by simp [isUsed, ht]
    cases e with
    | start n o =>
      cases ha
      exact hsame _ (by simp only [step, hused, ↓reduceIte])
    | handshake n c =>
      cases ha
      exact hsame _ (by simp only [step, hused, ↓reduceIte])
    | resume n w eager =>
      cases ha
      simp only [step, ht]
      exact .resumeTask ht w eager
    | drop n =>
      cases ha
      simp only [step, ht]
      have hgone : ∀ m : Link, m.tasks = Table.erase l.tasks task → KeepsToken task t.token? m :=
        fun m hm => .gone (by rw [hm]; exact Table.lookup_erase_self)
      cases t <;> exact hgone _ rfl
    | receive i => cases i <;> cases ha
    | _ => cases ha
  · exact hsame _ (step_others ha).1

/-! ## Tokens that have fired -/

theorem Moves.fired {lost : Nat → Prop} {n : Nat} (hm : Moves lost l m) (hn : n ∈ l.fired) :
    n ∈ m.fired := by
  induction hm with
  | refl => exact hn
  | tail _ hm ih =>
    cases hm with
    | op o _ =>
      rw [perform_frame]
      exact ih
    | fire token => exact List.mem_append_left _ ih
    | _ => exact ih

/-- A token that has fired has fired for good. -/
theorem isFired_event (hi : l.Inv) (hf : l.isFired token = true) (e : Event) :
    (l.step e).isFired token = true := by
  cases token with
  | none => cases hf
  | some n =>
    have hn : n ∈ l.fired := by simpa [isFired] using hf
    suffices n ∈ (l.step e).fired by simpa [isFired] using this
    rcases step_moves hi e with hm | ⟨_, _, o, -, -, -, -, hs⟩
    · exact hm.fired hn
    · rw [hs, perform_frame]
      exact hn

/-! ## What a task does that looks at no token -/

/-- What is done to a connection, and what comes of it, depends on no token. -/
def Blind {α : Type} (f : Link → Link × α) : Prop :=
  ∀ l tokens, f (l.withFired tokens) = ((f l).1.withFired tokens, (f l).2)

theorem enter_blind (a : Actor) (x : Exchange) : Blind (·.enter a x) := by
  intro l tokens
  dsimp only
  unfold enter
  rw [show (l.withFired tokens).isTurn a = l.isTurn a from rfl,
    show (l.withFired tokens).writable = l.writable from rfl]
  split_ifs <;> rfl

theorem begin_blind (a : Actor) (method : String) (params : Json) (kind : Call.Kind) :
    Blind (·.begin a method params kind) := by
  intro l tokens
  dsimp only
  unfold begin
  rw [show (l.withFired tokens).calls = l.calls from rfl]
  split
  · rfl
  · rename_i id calls hr
    split
    · rfl
    · exact enter_blind a _ (({ l with calls }).joinLine a) tokens

theorem await_blind (x : Exchange) (c : Cancellation) (w : Wakeup) : Blind (·.await x c w) := by
  intro l tokens
  dsimp only
  unfold await
  rw [show (l.withFired tokens).endOf? x.id = l.endOf? x.id from rfl,
    show (l.withFired tokens).isTimed x = l.isTimed x from rfl]
  split
  · rfl
  · split
    · rfl
    · split_ifs <;> rfl

theorem teardown_withFired (l : Link) (reason : LinkError) (tokens : List Nat) :
    (l.withFired tokens).teardown reason = (l.teardown reason).withFired tokens := by
  unfold teardown
  rw [show (l.withFired tokens).calls = l.calls from rfl]
  cases l.calls.failAll reason <;> rfl

theorem failWrite_blind (a : Actor) (x : Exchange) (reason : String) :
    Blind (·.failWrite a x reason) := by
  intro l tokens
  show ((((l.leaveLine a).withFired tokens).teardown _).forget x.id, _) = _
  rw [teardown_withFired]
  rfl

theorem resume_blind (a : Actor) (x : Exchange) (c : Cancellation) (w : Wakeup) :
    Blind (·.resume a x c w) := by
  intro l tokens
  dsimp only
  unfold resume
  split
  · exact enter_blind a x l tokens
  · split
    · exact await_blind _ c .nothing (l.leaveLine a) tokens
    · exact failWrite_blind a x _ l tokens
    · exact failWrite_blind a x _ l tokens
    · rfl
    · rfl
  · exact await_blind x c w l tokens

theorem proceed_withFired {f : Link → Link × Exchange.Progress} (hf : Blind f)
    {going : Exchange → Task} {next : Link → Outcome → Link}
    (hnext : ∀ m o, next (m.withFired tokens) o = (next m o).withFired tokens) :
    proceed task (f (l.withFired tokens)) going next =
      (proceed task (f l) going next).withFired tokens := by
  rw [hf l tokens]
  obtain ⟨m, r⟩ := f l
  rcases r with x | o
  · rfl
  · exact hnext m o

theorem finishCall_withFired (m : Link) (o : Outcome) :
    finishCall task (m.withFired tokens) o = (finishCall task m o).withFired tokens := rfl

theorem startJob_withFired (l : Link) : (l.withFired tokens).startJob task method params token =
    (l.startJob task method params token).withFired tokens :=
  proceed_withFired (begin_blind (.caller task) method params .job) finishCall_withFired

theorem jobsAnswered_withFired (m : Link) (o : Outcome) :
    jobsAnswered task method params token (m.withFired tokens) o =
      (jobsAnswered task method params token m o).withFired tokens := by
  unfold jobsAnswered
  split
  · rfl
  · split
    · exact startJob_withFired { m with jobStream := .live }
    · rfl

theorem ensureJobs_withFired (l : Link) :
    (l.withFired tokens).ensureJobs task method params token =
      (l.ensureJobs task method params token).withFired tokens := by
  unfold ensureJobs
  rw [show (l.withFired tokens).jobStream = l.jobStream from rfl]
  split
  · exact startJob_withFired l
  · rfl
  · exact proceed_withFired (l := { l with jobStream := .asking task })
      (begin_blind (.caller task) Method.subscribe (.array [.string jobCollection]) .plain)
      jobsAnswered_withFired

/-! ## Looking at the token -/

/-- A call that looks at its token is cancelled, or ends as it would without. -/
theorem await_cancelled (l : Link) (x : Exchange) {c : Cancellation} (hc : c ≠ .no) (w : Wakeup) :
    (∃ m, l.await x c w = (m, .over (.error .cancelled))) ∨
      ∃ m o, l.await x c w = (m, .over o) ∧ l.await x .no w = (m, .over o) := by
  cases c with
  | no => exact absurd rfl hc
  | seenFirst => exact .inl ⟨_, rfl⟩
  | seenLast =>
    simp only [await, reduceCtorEq, ↓reduceIte]
    split
    · exact .inr ⟨_, _, rfl, rfl⟩
    · split_ifs
      · exact .inr ⟨_, _, rfl, rfl⟩
      · exact .inl ⟨_, rfl⟩

/-- A call that has been written looks at its token. -/
theorem resume_cancelled (hx : x.stage = .waiting ∨ x.stage = .writing ∧ w = .written)
    {c : Cancellation} (hc : c ≠ .no) :
    (∃ m, l.resume a x c w = (m, .over (.error .cancelled))) ∨
      ∃ m o, l.resume a x c w = (m, .over o) ∧ l.resume a x .no w = (m, .over o) := by
  unfold resume
  rcases hx with hx | ⟨hx, rfl⟩ <;> rw [hx]
  · exact await_cancelled l x hc w
  · exact await_cancelled (l.leaveLine a) { x with stage := .waiting } hc .nothing

/-- One that has not does not. -/
theorem resume_blindly (hx : ¬ (x.stage = .waiting ∨ x.stage = .writing ∧ w = .written))
    (c : Cancellation) : l.resume a x c w = l.resume a x .no w := by
  unfold resume
  split
  · rfl
  · rename_i hstage
    split
    · exact absurd (.inr ⟨hstage, rfl⟩) hx
    all_goals rfl
  · rename_i hstage
    exact absurd (.inl hstage) hx

theorem finishCall_ends (m : Link) (o : Outcome) : (finishCall task m o).tasks.lookup task = none ∧
    (finishCall task m o).results.lookup task = some (o.map .value) :=
  ⟨Table.lookup_erase_self, Table.lookup_insert_self⟩

section
variable (ht : l.tasks.lookup task = some t)
include ht

/-- How a task goes on if no token has fired. -/
theorem step_unfired (w : Wakeup) (eager : Bool) :
    (l.withFired []).step (.resume task w eager) = (l.withFired []).resumeTask task t w eager := by
  have ht' : (l.withFired []).tasks.lookup task = some t := ht
  simp only [step, ht']

omit ht in
/-- A call goes on without a token as if none had fired. -/
theorem unfired_call (l : Link) (x : Exchange) (token : Option Nat) (w : Wakeup) (eager : Bool) :
    (l.withFired []).resumeTask task (.call x token) w eager =
      (proceed task (l.resume (.caller task) x .no w) (.call · token)
        (finishCall task)).withFired [] := by
  have hno : cancellation ((l.withFired []).isFired token) eager = .no := by cases token <;> rfl
  rw [resumeTask, hno]
  exact proceed_withFired (resume_blind (.caller task) x .no w) finishCall_withFired

omit ht in
/-- What looks at no token does the same whichever have fired. -/
theorem eq_of_blind {f : Link → Link}
    (hf : ∀ tokens, f (l.withFired tokens) = (f l).withFired tokens) :
    f l = (f (l.withFired [])).withFired l.fired := by
  rw [hf []]
  exact hf l.fired

/-- A task that has written its request is over when it goes on. -/
theorem written_task_ends (hf : l.isFired t.token? = true) (hw : t.HasWritten w) (eager : Bool) :
    (l.step (.resume task w eager)).tasks.lookup task = none ∧
      ((l.step (.resume task w eager)).results.lookup task = some (.error .cancelled) ∨
        ((l.withFired []).step (.resume task w eager)).tasks.lookup task = none ∧
          (l.step (.resume task w eager)).results.lookup task =
            ((l.withFired []).step (.resume task w eager)).results.lookup task) := by
  cases t with
  | call x token =>
    have hc : cancellation (l.isFired token) eager ≠ .no := by
      rw [show l.isFired token = true from hf]
      cases eager <;> simp [cancellation]
    rw [step_unfired ht, unfired_call]
    simp only [step, ht, resumeTask]
    rcases resume_cancelled (l := l) (a := .caller task) hw hc with ⟨m, hm⟩ | ⟨m, o, hm, hn⟩
    · rw [hm]
      exact ⟨(finishCall_ends m _).1, .inl (finishCall_ends m _).2⟩
    · rw [hm, hn]
      exact ⟨(finishCall_ends m o).1, .inr ⟨(finishCall_ends m o).1, rfl⟩⟩
  | _ => exact hw.elim

/-- A task that has not goes on as if no token had fired. -/
theorem unwritten_task_goes_on (hf : l.isFired t.token? = true) (hw : ¬ t.HasWritten w)
    (eager : Bool) : l.step (.resume task w eager) =
      ((l.withFired []).step (.resume task w eager)).withFired l.fired := by
  rw [step_unfired ht]
  simp only [step, ht]
  cases t with
  | call x token =>
    rw [unfired_call]
    simp only [resumeTask]
    rw [resume_blindly hw]
    exact proceed_withFired (resume_blind (.caller task) x .no w) finishCall_withFired
  | awaitJobs method params token =>
    exact eq_of_blind (f := (·.ensureJobs task method params token)) fun _ => ensureJobs_withFired l
  | askJobs x method params token =>
    exact eq_of_blind (f := fun l => proceed task (l.resume (.caller task) x .no w)
      (.askJobs · method params token) (jobsAnswered task method params token)) fun _ =>
        proceed_withFired (resume_blind (.caller task) x .no w) jobsAnswered_withFired
  | _ => cases hf

end

/-- **Tokens are seen once the request is written.** An operation is started with its token, and
keeps it while it is in hand; and a token that has fired has fired for good. When a task goes on
whose token has fired: if its request is written by then, it is over, and cancelled, or it comes to
what it would have come to anyway; if not, all goes on as if no token had fired. So it is over just
if its request is written, or if it would be anyway. -/
theorem tokens_are_seen_once_written {l : Link} (hl : l.Reachable) :
    (∀ task o, l.isUsed task = false → KeepsToken task o.token? (l.step (.start task o))) ∧
    ∀ task t, l.tasks.lookup task = some t →
      (∀ e, KeepsToken task t.token? (l.step e)) ∧
      (l.isFired t.token? = true → (∀ e, (l.step e).isFired t.token? = true) ∧ ∀ w eager,
        let m := l.step (.resume task w eager)
        let unfired := (l.withFired []).step (.resume task w eager)
        (t.HasWritten w → m.tasks.lookup task = none ∧
          (m.results.lookup task = some (.error .cancelled) ∨ unfired.tasks.lookup task = none ∧
            m.results.lookup task = unfired.results.lookup task)) ∧
        (¬ t.HasWritten w → m = unfired.withFired l.fired) ∧
        (m.tasks.lookup task = none ↔ t.HasWritten w ∨ unfired.tasks.lookup task = none)) := by
  refine ⟨fun task o hu => ?_, fun task t ht => ⟨token_event ht, fun hf =>
    ⟨isFired_event hl.inv hf, fun w eager => ?_⟩⟩⟩
  · simp only [step, hu, Bool.false_eq_true, ↓reduceIte]
    exact .startTask l task o
  · intro m unfired
    refine ⟨fun hw => written_task_ends ht hf hw eager,
      fun hw => unwritten_task_goes_on ht hf hw eager, fun hnone => ?_, ?_⟩
    · by_cases hw : t.HasWritten w
      · exact .inl hw
      · rw [show m = unfired.withFired l.fired from unwritten_task_goes_on ht hf hw eager] at hnone
        exact .inr hnone
    · by_cases hw : t.HasWritten w
      · exact fun _ => (written_task_ends ht hf hw eager).1
      · rintro (hw' | hnone)
        · exact absurd hw' hw
        · rw [show m = unfired.withFired l.fired from unwritten_task_goes_on ht hf hw eager]
          exact hnone

/-! ## Before the request is written -/

/-- A caller with a token waits: for the answer to its own question whether the server sends job
reports, for that to another's question, for its turn to write, and for the write. Then the token
fires. -/
def unwritten : List (Nat × List Event) :=
  [(1, [.start 1 (.callAndWait "scrub" .null (some 9)), .resume 1 .written false, .fire 9]),
    (2, [.start 1 (.callAndWait "scrub" .null none),
      .start 2 (.callAndWait "scrub" .null (some 9)), .fire 9]),
    (2, [.start 1 (.call "pool.query" .null none),
      .start 2 (.call "pool.query" .null (some 9)), .fire 9]),
    (1, [.start 1 (.call "pool.query" .null (some 9)), .fire 9])]

/-- Whoever waits so does not see the token. -/
theorem token_is_not_seen_before_writing :
    (∀ p ∈ unwritten, let l := (ofSettings {}).run p.2
      (l.tasks.lookup p.1).bind Task.token? = some 9 ∧ l.isFired (some 9) = true ∧
        ((l.step (.resume p.1 .nothing true)).tasks.lookup p.1).isSome = true) ∧
    ¬ ∀ l : Link, l.Reachable → ∀ task t, l.tasks.lookup task = some t →
      l.isFired t.token? = true → ∀ w eager,
        (l.step (.resume task w eager)).tasks.lookup task = none := by
  have hunseen : ∀ p ∈ unwritten, let l := (ofSettings {}).run p.2
      (l.tasks.lookup p.1).bind Task.token? = some 9 ∧ l.isFired (some 9) = true ∧
        ((l.step (.resume p.1 .nothing true)).tasks.lookup p.1).isSome = true := by
    have hseen : ∀ p ∈ unwritten, (let l := (ofSettings {}).run p.2
        ((l.tasks.lookup p.1).bind Task.token?, l.isFired (some 9),
          ((l.step (.resume p.1 .nothing true)).tasks.lookup p.1).isSome)) =
        (some 9, true, true) := by
      simp only [unwritten, List.forall_mem_cons, List.not_mem_nil, IsEmpty.forall_iff,
        implies_true, and_true]
      exact ⟨by cbv, by cbv, by cbv, by cbv⟩
    intro p hp
    simpa only [Prod.mk.injEq] using hseen p hp
  refine ⟨hunseen, fun hall => ?_⟩
  obtain ⟨htoken, hfired, hgoing⟩ := hunseen _ (List.mem_cons_self ..)
  obtain ⟨t, ht, htoken⟩ := Option.bind_eq_some_iff.1 htoken
  rw [hall _ ⟨{}, _, rfl⟩ 1 t ht (by rw [htoken]; exact hfired)] at hgoing
  cases hgoing

/-- Whoever has written, and waits for the answer, is cancelled. -/
theorem written_call_is_cancelled :
    let l := (ofSettings {}).run
      [.start 1 (.call "pool.query" .null (some 9)), .resume 1 .written false, .fire 9]
    l.Reachable ∧ (l.step (.resume 1 .nothing true)).tasks.lookup 1 = none := by
  intro l
  have hl : l.Reachable := ⟨{}, _, rfl⟩
  obtain ⟨frame, htasks⟩ : ∃ frame, (l.tasks.lookup 1, l.isFired (some 9)) =
      (some (.call { id := 1, method := "pool.query", kind := .plain, frame, stage := .waiting }
        (some 9)), true) := ⟨_, by cbv⟩
  obtain ⟨ht, hfired⟩ := Prod.mk.inj htasks
  have hend := (((tokens_are_seen_once_written hl).2 1 _ ht).2 hfired).2 .nothing true
  exact ⟨hl, hend.2.2.2 (.inl (.inl rfl))⟩

end Link

end ServerLink
