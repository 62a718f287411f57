import ServerLink.Proofs.Link.Resuming
import ServerLink.Proofs.Link.Caught

/-!
# What the probe finds

Whenever a question of the probe has come to an end, the probe has found something
(`Link.finds?`), and heeds it (`step_finds`): it rests, or it ends the connection for what is wrong.
Nothing else that it does ends the connection, but a write of its own that fails
(`closed_probe_turn`, `closed_of_finds`). Once something is wrong the probe asks no more
(`AsksNoMore.event`), and at any time nothing is left of a question that it has done with
(`Tidy.gone_after_turn`).
-/

namespace ServerLink

/-- What the probe finds. -/
inductive Probe.Finding where
  /-- Its question has come to this. -/
  | answered (outcome : Outcome)
  /-- Its question has come to nothing for so many seconds. -/
  | silence (seconds : Nat)
deriving DecidableEq

/-- What is wrong with a finding. -/
def Probe.Finding.failure? : Probe.Finding → Option String
  | .answered (.ok v) => if v = .string pong then none else some ("unexpected reply " ++ v.render)
  | .answered (.error e) => some e.message
  | .silence seconds => some ("no reply within " ++ toString seconds ++ "s")

/-- The server answers as it should, and with nothing else. -/
theorem Probe.Finding.failure?_eq_none {f : Probe.Finding} :
    f.failure? = none ↔ f = .answered (.ok (.string pong)) := by
  cases f with
  | answered o =>
    cases o with
    | ok v => simp [failure?]
    | error e => simp [failure?]
  | silence seconds => simp [failure?]

namespace Link

open Probe (Finding)

/-- What is found when a question goes on: something if it is over. -/
def foundBy : Link × Exchange.Progress → Option (Link × Finding)
  | (m, .over o) => some (m, .answered o)
  | (_, .going _) => none

/-- What the probe finds by an event, if anything, and the connection as it is then. -/
def finds? (l : Link) : Event → Option (Link × Finding)
  | .tick =>
    if l.probe = .resting then foundBy (l.begin .probe Method.ping .null .plain) else none
  | .resumeProbe w eager =>
    match l.probe with
    | .asking x => foundBy (l.resume .probe x (cancellation l.stopped eager) w)
    | .off | .resting | .releasing _ | .ended => none
  | .probeLate =>
    match l.probe, l.settings.pingEvery? with
    | .asking x, some seconds => some (l.abandon .probe x, .silence seconds)
    | _, _ => none
  | _ => none

/-- All that the probe finds in a run, in order. -/
def findings (l : Link) : List Event → List Finding
  | [] => []
  | e :: es => ((l.finds? e).map (·.2)).toList ++ (l.step e).findings es

/-- What the probe does about a finding. -/
def heed (m : Link) (f : Finding) : Link :=
  match f.failure? with
  | none => { m with probe := .resting }
  | some text => m.probeFailed text

/-- The probe has ended or is about to. -/
def AsksNoMore (l : Link) : Prop := l.probe = .ended ∨ ∃ stage, l.probe = .releasing stage

variable {l m : Link} {a : Actor} {x : Exchange} {e : Event} {f : Finding} {id : Nat}
  {reason why : LinkError} {text : String} {w : Wakeup} {c : Cancellation} {o : Outcome}

/-! ## Findings -/

theorem foundBy_eq_some {p : Link × Exchange.Progress} :
    foundBy p = some (m, f) ↔ ∃ o, p = (m, .over o) ∧ f = .answered o := by
  obtain ⟨n, y | o⟩ := p
  · simp [foundBy]
  · simp only [foundBy, Option.some.injEq, Prod.mk.injEq, Exchange.Progress.over.injEq]
    constructor
    · rintro ⟨rfl, rfl⟩
      exact ⟨o, ⟨rfl, rfl⟩, rfl⟩
    · rintro ⟨o', ⟨rfl, rfl⟩, rfl⟩
      exact ⟨rfl, rfl⟩

/-- What leads to a finding: a question that could not even be asked, one that is over, or one that
has taken too long. -/
theorem finds_cases (h : l.finds? e = some (m, f)) :
    (e = .tick ∧ l.probe = .resting ∧ ∃ o, f = .answered o ∧
      l.begin .probe Method.ping .null .plain = (m, .over o)) ∨
    (∃ w eager x o, e = .resumeProbe w eager ∧ l.probe = .asking x ∧ f = .answered o ∧
      l.resume .probe x (cancellation l.stopped eager) w = (m, .over o)) ∨
    (∃ x seconds, e = .probeLate ∧ l.probe = .asking x ∧ l.settings.pingEvery? = some seconds ∧
      f = .silence seconds ∧ m = l.abandon .probe x) := by
  cases e with
  | tick =>
    simp only [finds?] at h
    split at h
    · rename_i hp
      obtain ⟨o, hbegin, rfl⟩ := foundBy_eq_some.1 h
      exact .inl ⟨rfl, hp, o, rfl, hbegin⟩
    · cases h
  | resumeProbe w eager =>
    simp only [finds?] at h
    split at h
    · rename_i x hp
      obtain ⟨o, hresume, rfl⟩ := foundBy_eq_some.1 h
      exact .inr (.inl ⟨w, eager, x, o, rfl, hp, rfl, hresume⟩)
    all_goals cases h
  | probeLate =>
    simp only [finds?] at h
    split at h
    · rename_i x seconds hp hs
      cases h
      exact .inr (.inr ⟨x, seconds, rfl, hp, hs, rfl, rfl⟩)
    · cases h
  | _ => cases h

theorem actor_of_finds {p : Link × Finding} (h : l.finds? e = some p) :
    e.actor? = some .probe := by
  rcases finds_cases h with ⟨rfl, -⟩ | ⟨w, eager, x, o, rfl, -⟩ | ⟨x, seconds, rfl, -⟩ <;> rfl

theorem probeAnswered_eq (m : Link) (o : Outcome) : m.probeAnswered o = m.heed (.answered o) := by
  unfold probeAnswered heed Finding.failure?
  cases o with
  | ok v => by_cases hv : v = .string pong <;> simp [hv]
  | error e => rfl

/-- **The probe heeds what it finds.** -/
theorem step_finds (h : l.finds? e = some (m, f)) : l.step e = m.heed f := by
  rcases finds_cases h with ⟨rfl, hp, o, rfl, hbegin⟩ | ⟨w, eager, x, o, rfl, hp, rfl, hresume⟩ |
    ⟨x, seconds, rfl, hp, hs, rfl, rfl⟩
  · simp only [step, hp, ↓reduceIte, hbegin, continueProbing, probeAnswered_eq]
  · simp only [step, hp, hresume, continueProbing, probeAnswered_eq]
  · simp only [step, hp, hs, heed, Finding.failure?]

theorem moves_of_finds (h : l.finds? e = some (m, f)) : Moves (fun _ => True) l m := by
  rcases finds_cases h with ⟨-, -, o, -, hbegin⟩ | ⟨w, eager, x, o, -, -, -, hresume⟩ |
    ⟨x, seconds, -, -, -, -, rfl⟩
  · have hm : Moves (fun _ => True) l (l.begin .probe Method.ping .null .plain).1 :=
      begin_moves l .probe _ _ _
    rwa [hbegin] at hm
  · have hm : Moves (fun _ => True) l
        (l.resume .probe x (cancellation l.stopped eager) w).1 := resume_moves l .probe x _ w
    rwa [hresume] at hm
  · exact abandon_moves l .probe x

theorem findings_append (l : Link) (es fs : List Event) :
    l.findings (es ++ fs) = l.findings es ++ (l.run es).findings fs := by
  induction es generalizing l with
  | nil => rfl
  | cons e es ih =>
    rw [List.cons_append, findings, findings, ih, List.append_assoc]
    rfl

theorem mem_findings {before after : List Event} (h : (l.run before).finds? e = some (m, f)) :
    f ∈ l.findings (before ++ e :: after) := by
  rw [findings_append, findings, h]
  simp

/-! ## What a question does to the connection -/

theorem closed_enter (l : Link) (a : Actor) (x : Exchange) :
    (l.enter a x).1.calls.closed = l.calls.closed := by
  unfold enter
  repeat' split
  all_goals rfl

theorem closed_begin (l : Link) (a : Actor) (method : String) (params : Json) (kind : Call.Kind) :
    (l.begin a method params kind).1.calls.closed = l.calls.closed := by
  cases hc : l.calls.closed with
  | some reason => rw [begin_of_closed l hc, hc]
  | none =>
    simp only [begin, Calls.register_ok hc]
    split
    · exact hc
    · rw [closed_enter]
      exact hc

/-- A call that goes on ends the connection only if its write fails. -/
theorem resume_closes (l : Link) (a : Actor) (x : Exchange) (c : Cancellation) (w : Wakeup) :
    (l.resume a x c w).1.calls.closed = l.calls.closed ∨
      ∃ text, l.resume a x c w = l.failWrite a x text := by
  unfold resume
  split
  · exact .inl (closed_enter l a x)
  · split
    · exact .inl (closed_await _ _ _ _)
    · exact .inr ⟨_, rfl⟩
    · exact .inr ⟨_, rfl⟩
    · exact .inl rfl
    · exact .inl rfl
  · exact .inl (closed_await _ _ _ _)

/-- When the probe finds something, the connection is as open as it was, unless the write of its
question has just failed. -/
theorem closed_of_finds (h : l.finds? e = some (m, f)) : m.calls.closed = l.calls.closed ∨
    l.calls.closed = none ∧ ∃ text, m.calls.closed = some (.transport text) ∧
      f = .answered (.error (.transport text)) := by
  rcases finds_cases h with ⟨-, -, o, -, hbegin⟩ | ⟨w, eager, x, o, -, -, rfl, hresume⟩ |
    ⟨x, seconds, -, -, -, -, rfl⟩
  · have hclosed := closed_begin l .probe Method.ping .null .plain
    rw [hbegin] at hclosed
    exact .inl hclosed
  · rcases resume_closes l .probe x (cancellation l.stopped eager) w with hclosed | ⟨text, hfail⟩
    · rw [hresume] at hclosed
      exact .inl hclosed
    · rw [hresume] at hfail
      cases hfail
      have hclosed : ((l.leaveLine .probe).teardown (.transport text)).calls.closed =
          some (l.calls.closed.getD (.transport text)) := closed_teardown _ _
      cases hc : l.calls.closed with
      | some why =>
        rw [hc] at hclosed
        exact .inl hclosed
      | none =>
        rw [hc] at hclosed
        exact .inr ⟨rfl, text, hclosed, rfl⟩
  · exact .inl rfl

theorem calls_release (l : Link) (a : Actor) (stage : Release) :
    (l.release a stage).1.calls = l.calls := by
  unfold release
  repeat' split
  all_goals rfl

theorem calls_continueProbe (p : Link × Option Release) : (continueProbe p).calls = p.1.calls := by
  obtain ⟨m, stage⟩ := p
  cases stage <;> rfl

/-- In a turn in which it finds nothing, the probe does not end the connection. -/
theorem closed_of_not_finds (ha : e.actor? = some .probe) (h : l.finds? e = none) :
    (l.step e).calls.closed = l.calls.closed := by
  have hgoing : ∀ p : Link × Exchange.Progress, foundBy p = none →
      (continueProbing p).calls = p.1.calls := by
    rintro ⟨m, x | o⟩ hp
    · rfl
    · cases hp
  cases e with
  | startProbe =>
    dsimp only [step]
    split <;> rfl
  | tick =>
    simp only [finds?] at h
    dsimp only [step]
    split
    · rename_i hp
      rw [if_pos hp] at h
      rw [hgoing _ h, closed_begin]
    · rfl
  | resumeProbe w eager =>
    dsimp only [step]
    cases hp : l.probe with
    | off | ended => rfl
    | resting =>
      dsimp only
      split <;> rfl
    | asking x =>
      simp only [finds?, hp] at h
      dsimp only
      rw [hgoing _ h]
      rcases resume_closes l .probe x (cancellation l.stopped eager) w with hc | ⟨text, hfail⟩
      · exact hc
      · rw [hfail] at h
        cases h
    | releasing stage =>
      cases stage with
      | queued =>
        dsimp only
        rw [calls_continueProbe, calls_release]
      | closing => cases w <;> rfl
  | probeLate =>
    dsimp only [step]
    split
    · rename_i x seconds hp hs
      simp [finds?, hp, hs] at h
    · rfl
  | receive i => cases i <;> cases ha
  | _ => cases ha

/-! ## A probe that asks no more -/

namespace AsksNoMore

/-- The probe stays as it is, whatever happens, finds nothing, and writes nothing. -/
theorem event (hd : l.AsksNoMore) (e : Event) : (l.step e).AsksNoMore ∧ l.finds? e = none ∧
    (e.actor? = some .probe → (l.step e).sent = l.sent) := by
  by_cases ha : e.actor? = some .probe
  · have hrelease : ∀ stage, (continueProbe (l.release .probe stage)).AsksNoMore ∧
        (continueProbe (l.release .probe stage)).sent = l.sent := by
      intro stage
      unfold release
      repeat' split
      all_goals exact ⟨by simp [AsksNoMore, continueProbe], rfl⟩
    cases e with
    | startProbe | tick | probeLate =>
      rcases hd with hp | ⟨stage, hp⟩ <;> simp [AsksNoMore, step, finds?, hp]
    | resumeProbe w eager =>
      rcases hd with hp | ⟨stage, hp⟩
      · simp [AsksNoMore, step, finds?, hp]
      · have hnone : l.finds? (.resumeProbe w eager) = none := by simp [finds?, hp]
        cases stage with
        | queued =>
          have hstep : l.step (.resumeProbe w eager) =
              continueProbe (l.release .probe .queued) := by simp only [step, hp]
          rw [hstep]
          exact ⟨(hrelease .queued).1, hnone, fun _ => (hrelease .queued).2⟩
        | closing => cases w <;> simp [AsksNoMore, step, finds?, hp]
    | receive i => cases i <;> cases ha
    | _ => cases ha
  · have hplace : (l.step e).probe = l.probe := step_others ha
    refine ⟨by rw [AsksNoMore, hplace]; exact hd, ?_, fun h => absurd h ha⟩
    cases hf : l.finds? e with
    | none => rfl
    | some p => exact absurd (actor_of_finds hf) ha

theorem run (hd : l.AsksNoMore) (es : List Event) : (l.run es).AsksNoMore := by
  induction es generalizing l with
  | nil => exact hd
  | cons e es ih => exact ih (hd.event e).1

theorem findings (hd : l.AsksNoMore) (es : List Event) : l.findings es = [] := by
  induction es generalizing l with
  | nil => rfl
  | cons e es ih =>
    obtain ⟨hd', hnone, -⟩ := hd.event e
    rw [Link.findings, hnone, ih hd']
    rfl

end AsksNoMore

/-! ## What is wrong -/

theorem probeFailed_of_stopped (hs : m.stopped = true) (text : String) :
    m.probeFailed text = { m with probe := .ended } := by
  rw [probeFailed, if_pos hs]

/-- On an open connection the probe tears it down and goes to give the write half back. -/
theorem probeFailed_of_open (hs : m.stopped = false) (text : String) :
    (m.probeFailed text).calls =
        (m.teardown (.closed ("liveness probe failed: " ++ text))).calls ∧
      (m.probeFailed text).slots =
        (m.teardown (.closed ("liveness probe failed: " ++ text))).slots ∧
      (m.probeFailed text).AsksNoMore := by
  rw [probeFailed, if_neg (by simp [hs])]
  generalize m.teardown (.closed ("liveness probe failed: " ++ text)) = n
  simp only [release]
  repeat' split
  all_goals exact ⟨rfl, rfl, by simp [AsksNoMore, continueProbe]⟩

theorem probeFailed_done (m : Link) (text : String) : (m.probeFailed text).AsksNoMore := by
  cases hs : m.stopped with
  | true => rw [probeFailed_of_stopped hs]; exact .inl rfl
  | false => exact (probeFailed_of_open hs text).2.2

theorem done_of_failure (h : l.finds? e = some (m, f)) (hf : f.failure? = some text) :
    (l.step e).AsksNoMore := by
  rw [step_finds h, heed, hf]
  exact probeFailed_done m text

/-- While the probe finds what it wants, it does not end the connection. -/
theorem closed_of_good (ha : e.actor? = some .probe)
    (hgood : ∀ m f, l.finds? e = some (m, f) → f = .answered (.ok (.string pong))) :
    (l.step e).calls.closed = l.calls.closed := by
  cases hfinds : l.finds? e with
  | none => exact closed_of_not_finds ha hfinds
  | some p =>
    obtain ⟨m, f⟩ := p
    obtain rfl := hgood m f hfinds
    have hstep : l.step e = { m with probe := .resting } := by
      rw [step_finds hfinds, heed, Finding.failure?_eq_none.2 rfl]
    rw [hstep]
    rcases closed_of_finds hfinds with hc | ⟨-, text, -, hf⟩
    · exact hc
    · cases hf

section
variable (hi : l.Inv) (h : l.finds? e = some (m, f)) (hf : f.failure? = some text)
include hi h hf

/-- What is wrong ends an open connection, and every outstanding call is told. -/
theorem over_of_failure (hopen : m.calls.closed = none) :
    (l.step e).Over (.closed ("liveness probe failed: " ++ text)) ∧
      (∀ later, ((l.step e).run later).Over (.closed ("liveness probe failed: " ++ text))) ∧
      ∀ id, m.calls.Outstanding id → (l.step e).slots.lookup id =
        some (.filled (.error (.closed ("liveness probe failed: " ++ text)))) := by
  have hm : m.Inv := hi.moves (moves_of_finds h)
  have hs : m.stopped = false := by rw [hm.stopped, hopen]; rfl
  obtain ⟨hcalls, hslots, -⟩ := probeFailed_of_open hs text
  have hstep : l.step e = m.probeFailed text := by rw [step_finds h, heed, hf]
  have hclosed : (l.step e).calls.closed = some (.closed ("liveness probe failed: " ++ text)) := by
    rw [hstep, hcalls, closed_teardown, hopen]
    rfl
  have hn : (l.step e).Inv := hi.event e
  refine ⟨hn.over hclosed, fun later => (hn.run later).over (closed_run hn hclosed later),
    fun id ho => ?_⟩
  rw [hstep, hslots]
  exact (slots_teardown hm hopen _ id).1 ho

/-- On a connection that has ended already the probe just ends. -/
theorem step_of_failure (hclosed : m.calls.closed.isSome) :
    l.step e = { m with probe := .ended } := by
  have hm : m.Inv := hi.moves (moves_of_finds h)
  rw [step_finds h, heed, hf]
  exact probeFailed_of_stopped (hm.stopped.trans hclosed) text

end

/-- After the end of the connection the probe comes to its end as well, if everybody goes on. -/
theorem probe_comes_to_end (hi : l.Inv) (hl : l.Tidy) (hc : l.calls.closed = some reason)
    (hp : l.probe = .resting ∨ ∃ x, l.probe = .asking x) :
    ∃ events, Patient events ∧ (l.run events).probe = .ended := by
  have hrest : ∀ m : Link, m.stopped = true → m.probe = .resting →
      (m.step (.resumeOf .probe .written false)).probe = .ended := by
    intro m hs hp
    simp [Event.resumeOf, step, hp, hs]
  have hpatient : ∀ n, Patient (List.replicate n (.resumeOf .probe .written false)) :=
    fun n e he => ⟨.probe, List.eq_of_mem_replicate he⟩
  have hstopped : ∀ m : Link, m.Inv → m.calls.closed = some reason → m.stopped = true := by
    intro m hm hc
    rw [hm.stopped, hc]
    rfl
  rcases hp with hp | ⟨x, hp⟩
  · exact ⟨_, hpatient 1, hrest l (hstopped l hi hc) hp⟩
  · have hx : l.callOf .probe = some x := by simp [callOf, hp, Probe.State.exchange?]
    obtain ⟨events, y, hevents, hy, -, -, hover⟩ := call_comes_to_end hi hl hc hx
    obtain ⟨m, o, hresume⟩ := hover (cancellation (l.run events).stopped false)
    have hasking : (l.run events).probe = .asking y := by
      cases hq : (l.run events).probe <;> simp [callOf, hq, Probe.State.exchange?] at hy
      rw [hy]
    have hfinds : (l.run events).finds? (.resumeProbe .written false) =
        some (m, .answered o) := by
      simp only [finds?, hasking, hresume]
      rfl
    have hstep : (l.run events).step (.resumeOf .probe .written false) = m.heed (.answered o) :=
      step_finds hfinds
    have hm : m.stopped = true := by
      have hmoves := moves_of_finds hfinds
      exact hstopped m ((hi.run events).moves hmoves) (hmoves.closed (closed_run hi hc events))
    refine ⟨events ++ List.replicate 2 (.resumeOf .probe .written false), fun e he => ?_, ?_⟩
    · exact (List.mem_append.1 he).elim (hevents e) (hpatient 2 e)
    · -- after a good answer the probe rests, and sees then that it is to stop
      rw [run_append]
      show (((l.run events).step (.resumeOf .probe .written false)).step
        (.resumeOf .probe .written false)).probe = .ended
      rw [hstep, heed]
      split
      · exact hrest { m with probe := .resting } hm rfl
      · rw [probeFailed_of_stopped hm]
        rfl

/-! ## What is left of a question -/

/-- An id that an actor's turn takes out of its hand, or hands out and does not leave there, is gone
for good. -/
theorem Tidy.gone_after_turn (hl : l.Tidy) (ha : e.actor? = some a)
    (hid : id < (l.step e).calls.nextId)
    (hmine : (∃ x, l.callOf a = some x ∧ x.id = id) ∨ l.calls.nextId ≤ id)
    (hno : ∀ y, (l.step e).callOf a = some y → y.id ≠ id) (later : List Event) :
    ((l.step e).run later).Gone id := by
  have hunknown : ¬ (l.step e).Known id := by
    refine (hl.event e).not_known fun b y hy hyid => ?_
    by_cases hba : b = a
    · exact hno y (hba ▸ hy) hyid
    have hplace : SamePlace l (l.step e) b := step_others (by simp [ha, Ne.symm hba])
    rw [callOf_eq hplace] at hy
    rcases hmine with ⟨x, hx, hxid⟩ | hfresh
    · have hsame := call_of_callOf hx
      rw [hxid, ← hyid] at hsame
      exact hba (hl.owned.once b a y.id y.kind x.kind (call_of_callOf hy) hsame)
    · have hlt := hl.owned.admitted y.id (hl.known_of_callOf hy)
      omega
  exact gone_of_not_known fun hk => hunknown (known_run (hl.event e) hid hk)

/-! ## Runs -/

/-- **The probe ends the connection at the first bad answer, and only then.** In any run, as long as
everything that the probe has found is the answer that it wants, no turn of the probe ends the
connection. The first time that something is wrong, it asks no more: it finds nothing any more and
writes nothing any more. If the connection is open then, it is over from that turn on, with what is
wrong as its reason, which every outstanding call gets; if it has ended already, be it by the failed
write of the probe's own question, the probe just ends. On a connection that has ended, a turn of
the probe changes neither the reason nor the place of a task, and fills no slot; and the probe comes
to its end if everybody goes on. Whatever the probe finds, nothing is left, now or later, of a
question that it has done with. -/
theorem probe_ends_connection_at_first_failure (settings : Settings) (before : List Event)
    (e : Event) (later : List Event) :
    let l := (ofSettings settings).run before
    let n := l.step e
    (e.actor? = some .probe →
      (∀ f ∈ (ofSettings settings).findings (before ++ [e]),
        f = .answered (.ok (.string pong))) → n.calls.closed = l.calls.closed) ∧
    (∀ m f text, l.finds? e = some (m, f) → f.failure? = some text →
      (m.calls.closed = l.calls.closed ∨ l.calls.closed = none ∧
        ∃ cause, m.calls.closed = some (.transport cause) ∧
          f = .answered (.error (.transport cause))) ∧
      (m.calls.closed = none → ∃ reason,
        reason = .closed ("liveness probe failed: " ++ text) ∧ n.Over reason ∧
        (n.run later).Over reason ∧
        ∀ id, m.calls.Outstanding id → n.slots.lookup id = some (.filled (.error reason))) ∧
      (m.calls.closed.isSome → n = { m with probe := .ended }) ∧
      n.findings later = [] ∧
      ∀ es e' fs, later = es ++ e' :: fs → e'.actor? = some .probe →
        ((n.run es).step e').sent = (n.run es).sent) ∧
    (∀ reason, l.calls.closed = some reason →
      (e.actor? = some .probe → n.calls.closed = some reason ∧
        (∀ id how, n.slots.lookup id = some how → l.slots.lookup id = some how) ∧
        ∀ task, SamePlace l n (.caller task)) ∧
      ((l.probe = .resting ∨ ∃ x, l.probe = .asking x) →
        ∃ events, Patient events ∧ (l.run events).probe = .ended)) ∧
    (e.actor? = some .probe → ∀ id < n.calls.nextId,
      ((∃ x, l.callOf .probe = some x ∧ x.id = id) ∨ l.calls.nextId ≤ id) →
      (∀ y, n.callOf .probe = some y → y.id ≠ id) → (n.run later).Gone id) := by
  intro l n
  have hr : l.Reachable := ⟨settings, before, rfl⟩
  refine ⟨fun ha hall => closed_of_good ha fun m f hfinds => hall f (mem_findings hfinds),
    fun m f text hfinds hf => ⟨closed_of_finds hfinds, fun hopen => ?_,
      step_of_failure hr.inv hfinds hf, ?_, fun es e' fs _ he' => ?_⟩,
    fun reason hc => ⟨fun ha => ⟨closed_event hr.inv hc e, fun id how hs => ?_, fun task => ?_⟩,
      fun hp => probe_comes_to_end hr.inv hr.tidy hc hp⟩,
    fun ha id hid hmine hno => hr.tidy.gone_after_turn ha hid hmine hno later⟩
  · obtain ⟨hover, hlater, htold⟩ := over_of_failure hr.inv hfinds hf hopen
    exact ⟨_, rfl, hover, hlater later, htold⟩
  · exact (done_of_failure hfinds hf).findings later
  · exact (((done_of_failure hfinds hf).run es).event e').2.2 he'
  · have hgo : (l.go [.inl e]).slots.lookup id = some how := hs
    exact slots_go_over hr.inv hc hgo
  · exact step_others (by simp [ha])

/-- The probe asks, and the server does not answer. -/
def unanswered : List Event := [.startProbe, .tick, .resumeProbe .written false]

theorem silence_ends_connection : ∃ m f,
    ((ofSettings {}).run unanswered).finds? .probeLate = some (m, f) ∧
    f.failure? = some "no reply within 30s" ∧ m.calls.closed = none ∧
    ∀ later, ((((ofSettings {}).run unanswered).step .probeLate).run later).Over
      (.closed "liveness probe failed: no reply within 30s") := by
  obtain ⟨found, hfound, hfacts⟩ : ∃ found,
      found = ((ofSettings {}).run unanswered).finds? .probeLate ∧
      found.map (fun p => (p.1.calls.closed, p.2.failure?)) =
        some (none, some "no reply within 30s") := ⟨_, rfl, by cbv⟩
  obtain ⟨⟨m, f⟩, rfl, hboth⟩ := Option.map_eq_some_iff.1 hfacts
  obtain ⟨hopen, hfailure⟩ := Prod.mk.inj hboth
  refine ⟨m, f, hfound.symm, hfailure, hopen, fun later => ?_⟩
  obtain ⟨-, hends, -⟩ := (probe_ends_connection_at_first_failure {} unanswered .probeLate
    later).2.1 m f _ hfound.symm hfailure
  obtain ⟨_, rfl, -, hover, -⟩ := hends hopen
  exact hover

end Link

end ServerLink
