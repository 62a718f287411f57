import ServerLink.Proofs.Link.Afterwards
import ServerLink.Proofs.Link.JobStream

/-!
# Handshakes on a connection

A handshake makes two calls, one after the other, and takes both answers into account. What the
server has answered so far says where it stands (`Stands`); whatever happens on the connection, it
goes on from there as the answers say (`Stands.event`), unless it is given up.
-/

namespace ServerLink

/-- The login is accepted: what it returns is an object that says so. -/
def Response.Admits (r : Response) : Prop :=
  r.error = none ∧ ∃ ms, r.result = .object ms ∧
    ms.lookup "response_type" = some (.string Method.loginSuccess)

/-- The server states this version: what is returned is a text from which it is read. -/
def Response.Dates (r : Response) (v : Version) : Prop :=
  r.error = none ∧ ∃ text, r.result = .string text ∧ Version.ofText? text = some v

/-- An error that is no answer of the server. -/
def LinkError.isSilence : LinkError → Bool
  | .transport _ | .closed _ | .timeout _ | .protocol _ => true
  | _ => false

/-- The two requests of a handshake. -/
inductive Greeting where
  | login
  | version
deriving DecidableEq

namespace Greeting

def method : Greeting → String
  | login => Method.login
  | version => Method.systemVersion

/-- The task that waits for the answer. -/
def task : Greeting → Exchange → Task
  | login => .login
  | version => .readVersion

/-- What the task does with the outcome. -/
def next : Greeting → Nat → Link → Outcome → Link
  | login => Link.loginAnswered
  | version => Link.versionAnswered

/-- The request is made after these answers. -/
def Follows : Greeting → List (String × Response) → Prop
  | login, told => told = []
  | version, told => ∃ a : Response, a.Admits ∧ told = [(Method.login, a)]

/-- What a handshake comes to after these answers. -/
inductive Verdict : List (String × Response) → Result → Prop
  | greeted {a b : Response} {v : Version} (ha : a.Admits) (hb : b.Dates v) :
      Verdict [(Method.login, a), (Method.systemVersion, b)] (.ok (.version v))
  | refused {a : Response} (ha : ¬ a.Admits) (text : String) :
      Verdict [(Method.login, a)] (.error (.authentication text))
  | undated {a b : Response} (ha : a.Admits) (hb : b.error = none) (hno : ∀ v, ¬ b.Dates v)
      (text : String) :
      Verdict [(Method.login, a), (Method.systemVersion, b)] (.error (.protocol text))
  | failed {a b : Response} {e : RpcError} (ha : a.Admits) (hb : b.error = some e) :
      Verdict [(Method.login, a), (Method.systemVersion, b)] (.error (.rpc e))
  | unanswered {g : Greeting} {told : List (String × Response)} {why : LinkError}
      (hg : g.Follows told) (hw : why.isSilence = true) : Verdict told (.error why)

end Greeting

namespace Link

/-- The server's answer to the call that a task has in hand, if this event brings it: the method
that was called, and the answer. -/
def answerTo? (l : Link) (task : Nat) (e : Event) : Option (String × Response) :=
  match l.callOf (.caller task), l.dispatched? e with
  | some x, some (.answer r) =>
    if r.id = x.id ∧ (l.calls.pending.lookup x.id).isSome then some (x.method, r) else none
  | _, _ => none

/-- The answer to the call that a task has in hand is there to see. -/
def HasAnswer (l : Link) (task : Nat) : Prop :=
  ∃ x r, l.callOf (.caller task) = some x ∧
    l.slots.lookup x.id = some (.filled (Calls.direct .plain r))

/-- A state that a connection gets into by itself: nobody ends it from outside. -/
structure Unforced (l : Link) : Prop where
  reachable : l.Reachable
  cause : ∀ reason, l.calls.closed = some reason → ∃ a, Cause a reason

/-- An event of a connection by itself, which leaves the users of the connection as they are. -/
structure Event.Within (task : Nat) (e : Event) : Prop where
  start : ∀ n o, e ≠ .start n o
  handshake : ∀ n c, e ≠ .handshake n c
  startProbe : e ≠ .startProbe
  teardown : ∀ why, e ≠ .teardown why
  drop : e ≠ .drop task

/-- Nobody but this task uses the connection, and it is not probed. -/
structure Alone (l : Link) (task : Nat) : Prop where
  others : ∀ n, n ≠ task → l.tasks.lookup n = none
  probe : l.probe = .off

/-- A task has ended by itself. -/
def IsOver (l : Link) (task : Nat) : Prop :=
  l.tasks.lookup task = none ∧ ∃ out, l.results.lookup task = some out

/-- A task has made a request of a handshake. -/
structure Asking (l : Link) (task : Nat) (g : Greeting) (x : Exchange) : Prop where
  waits : l.tasks.lookup task = some (g.task x)
  untold : l.results.lookup task = none
  entered : x.stage ≠ .queued
  kind : x.kind = .plain
  method : x.method = g.method

/-- Where a handshake stands after these answers. -/
inductive Stands (l : Link) (task : Nat) (told : List (String × Response)) : Prop
  | asking {g : Greeting} {x : Exchange} (h : l.Asking task g x) (hg : g.Follows told)
      (hs : ∀ o, l.slots.lookup x.id = some (.filled o) →
        ∃ why, o = .error why ∧ why.isSilence = true)
  | answered {g : Greeting} {x : Exchange} {before : List (String × Response)} {r : Response}
      (h : l.Asking task g x) (hg : g.Follows before) (ht : told = before ++ [(g.method, r)])
      (hs : l.slots.lookup x.id = some (.filled (Calls.direct .plain r)))
  | ended {r : Result} (ht : l.tasks.lookup task = none) (hr : l.results.lookup task = some r)
      (hv : Greeting.Verdict told r)

variable {l m : Link} {a : Actor} {x y : Exchange} {g : Greeting} {task n : Nat} {e : Event}
  {told before : List (String × Response)} {r : Response} {o : Outcome} {why : LinkError}

/-! ## Connections that are left to themselves -/

theorem Cause.isSilence (h : Cause a why) : why.isSilence = true := by cases h <;> rfl

namespace Unforced

theorem ofSettings (settings : Settings) : (Link.ofSettings settings).Unforced :=
  ⟨⟨settings, [], rfl⟩, by rintro _ ⟨⟩⟩

theorem event (h : l.Unforced) (he : ∀ why, e ≠ .teardown why) : (l.step e).Unforced := by
  refine ⟨h.reachable.run [e], fun reason hc => ?_⟩
  rcases cause_event hc with hold | hcause | hteardown
  · exact h.cause reason hold
  · exact hcause
  · exact absurd hteardown (he reason)

theorem isSilence (h : l.Unforced) {reason : LinkError} (hc : l.calls.closed = some reason) :
    reason.isSilence = true := by
  obtain ⟨a, ha⟩ := h.cause reason hc
  exact ha.isSilence

theorem closedError (h : l.Unforced) : l.closedError.isSilence = true := by
  rw [Link.closedError]
  cases hc : l.calls.closed with
  | none => rfl
  | some reason => exact h.isSilence hc

end Unforced

namespace Alone

theorem ofSettings (settings : Settings) (task : Nat) : (Link.ofSettings settings).Alone task :=
  ⟨fun _ _ => rfl, rfl⟩

/-- Such an event is the task's turn or the reader's or nobody's, or changes nothing. -/
theorem turns (h : l.Alone task) (he : e.Within task) :
    (e.actor? = some (.caller task) ∨ e.actor? = some .reader ∨ e.actor? = none) ∨
      l.step e = l := by
  cases ha : e.actor? with
  | none => exact .inl (.inr (.inr rfl))
  | some a =>
    cases a with
    | reader => exact .inl (.inr (.inl rfl))
    | probe =>
      right
      cases e with
      | startProbe => exact absurd rfl he.startProbe
      | tick => simp only [step, h.probe, reduceCtorEq, ↓reduceIte]
      | resumeProbe _ _ | probeLate => simp only [step, h.probe]
      | receive i => cases i <;> cases ha
      | _ => cases ha
    | caller n =>
      by_cases hn : n = task
      · exact .inl (.inl (by rw [hn]))
      right
      have hnone := h.others n hn
      cases e with
      | start k o => exact absurd rfl (he.start k o)
      | handshake k c => exact absurd rfl (he.handshake k c)
      | resume k _ _ | drop k =>
        cases ha
        simp only [step, hnone]
      | receive i => cases i <;> cases ha
      | _ => cases ha

theorem of_turn (h : l.Alone task)
    (ha : e.actor? = some (.caller task) ∨ e.actor? = some .reader ∨ e.actor? = none) :
    (l.step e).Alone task := by
  have hne : ∀ b : Actor, b = .probe ∨ (∃ n, n ≠ task ∧ b = .caller n) →
      SamePlace l (l.step e) b := by
    intro b hb
    refine step_others fun hb' => ?_
    rcases hb with rfl | ⟨n, hn, rfl⟩ <;> rw [hb'] at ha <;> simp at ha
    exact hn ha
  have hprobe : (l.step e).probe = l.probe := hne .probe (.inl rfl)
  exact ⟨fun n hn => (hne (.caller n) (.inr ⟨n, hn, rfl⟩)).1.trans (h.others n hn),
    hprobe.trans h.probe⟩

theorem event (h : l.Alone task) (he : e.Within task) : (l.step e).Alone task := by
  rcases h.turns he with ha | hsame
  · exact h.of_turn ha
  · rw [hsame]
    exact h

/-- Before the end of the connection nobody else is in the line. -/
theorem mem_line (h : l.Alone task) (hl : l.Tidy) (hi : l.Inv) (hc : l.calls.closed = none)
    (ha : a ∈ l.line) : a = .caller task := by
  have hin := (hl.queued.mem a).1 ha
  cases a with
  | reader =>
    have hr : l.reader = .running := by
      by_contra hr
      have hs := hi.reader hr
      rw [hi.stopped, hc] at hs
      cases hs
    simp only [hand, hr] at hin
    cases hin
  | probe =>
    simp only [hand, h.probe] at hin
    cases hin
  | caller n =>
    by_contra hne
    rw [hand_of_lookup_none (h.others n fun hn => hne (by rw [hn]))] at hin
    cases hin

end Alone

/-! ## What a request is answered -/

theorem resumeTask_greeting (l : Link) (task : Nat) (g : Greeting) (x : Exchange) (w : Wakeup)
    (eager : Bool) : l.resumeTask task (g.task x) w eager =
      proceed task (l.resume (.caller task) x .no w) g.task (g.next task) := by cases g <;> rfl

/-- What is no answer ends the handshake. -/
theorem next_silence (g : Greeting) (task : Nat) (m : Link) (hw : why.isSilence = true) :
    g.next task m (.error why) = m.finish task (.error why) := by
  cases g with
  | login => cases why <;> first | rfl | cases hw
  | version => rfl

theorem Asking.call (h : l.Asking task g x) : l.callOf (.caller task) = some x := by
  rw [callOf, h.waits]
  cases g <;> rfl

theorem Asking.hand (h : l.Asking task g x) :
    l.hand (.caller task) = ({} : Hand).making x := by
  rw [hand_of_lookup h.waits]
  cases g <;> rfl

theorem Asking.congr (h : l.Asking task g x) (hp : SamePlace l m (.caller task)) :
    m.Asking task g x := ⟨hp.1.trans h.waits, hp.2.trans h.untold, h.entered, h.kind, h.method⟩

/-- A handshake that gets no answer fails. -/
theorem Stands.silent (hb : g.Follows told) (hw : why.isSilence = true) (m : Link) :
    (g.next task m (.error why)).Stands task told := by
  rw [next_silence g task m hw]
  exact .ended Table.lookup_erase_self Table.lookup_insert_self (.unanswered hb hw)

/-- A request that is made on an open connection is written at once, if nobody is in the line. -/
theorem enter_alone (hline : l.line = []) (hw : l.writable = true) (x : Exchange) :
    (l.joinLine a).enter a x =
      ({ l.joinLine a with sent := l.sent ++ [x.frame] }, .going { x with stage := .writing }) := by
  have hturn : (l.joinLine a).isTurn a = true := by
    show decide ((l.line ++ [a]).head? = some a) = true
    rw [hline]
    simp
  have hw : (l.joinLine a).writable = true := hw
  simp only [enter, hturn, hw, ↓reduceIte]
  rfl

/-- Where a handshake stands once it has begun to make a request. -/
theorem Stands.begin (hb : g.Follows told) {params : Json}
    (hclosed : ∀ reason, l.calls.closed = some reason → reason.isSilence = true)
    (hopen : l.calls.closed = none → l.line = [] ∧ l.writable = true)
    (hr : l.results.lookup task = none) (hs : l.slots.lookup l.calls.nextId = none) :
    (proceed task (l.begin (.caller task) g.method params .plain) g.task (g.next task)).Stands task
      told := by
  cases hc : l.calls.closed with
  | some reason =>
    rw [begin_of_closed l hc]
    exact .silent hb (hclosed reason hc) _
  | none =>
    rcases begin_cases l (.caller task) g.method params .plain with
      ⟨why, hwhy, -⟩ | ⟨why, -, he⟩ | ⟨frame, -, he⟩
    · cases hc.symm.trans hwhy
    · rw [he]
      exact .silent hb (rfl : (LinkError.ofFrameError why).isSilence = true) _
    · rw [he, enter_alone (l := l.perform (.register .plain)) (hopen hc).1 (hopen hc).2]
      refine .asking (g := g) ⟨Table.lookup_insert_self, hr, by simp, rfl, rfl⟩ hb fun o ho => ?_
      have ho : l.slots.lookup l.calls.nextId = some (.filled o) := ho
      rw [hs] at ho
      cases ho

/-- A handshake on a new connection. -/
theorem Stands.start (settings : Settings) (task : Nat) (c : Credentials) :
    ((ofSettings settings).startHandshake task c).Stands task [] :=
  .begin (g := .login) rfl (by rintro _ ⟨⟩) (fun _ => ⟨rfl, rfl⟩) rfl rfl

/-! ## What the answers mean -/

theorem loginOutcome_direct (r : Response) :
    Link.loginOutcome (Calls.direct .plain r) = .ok () ∧ r.Admits ∨
      ∃ text, Link.loginOutcome (Calls.direct .plain r) = .error (.authentication text) ∧
        ¬ r.Admits := by
  rw [Calls.direct_plain, Response.outcome]
  cases he : r.error with
  | some e => exact .inr ⟨_, rfl, fun h => by cases he.symm.trans h.1⟩
  | none =>
    simp only [Except.mapError, Link.loginOutcome]
    by_cases hs : ((r.result.get? "response_type").bind Json.toString?).getD "no response_type" =
        Method.loginSuccess
    · rw [if_pos hs]
      refine .inl ⟨rfl, he, ?_⟩
      cases hv : r.result with
      | object ms =>
        rw [hv] at hs
        refine ⟨ms, rfl, ?_⟩
        simp only [Json.get?] at hs
        cases hl : ms.lookup "response_type" with
        | none => rw [hl] at hs; simp [Method.loginSuccess] at hs
        | some v =>
          rw [hl] at hs
          cases v with
          | string s =>
            have hs : s = Method.loginSuccess := hs
            rw [hs]
          | _ => simp [Json.toString?, Method.loginSuccess] at hs
      | _ => rw [hv] at hs; simp [Json.get?, Method.loginSuccess] at hs
    · rw [if_neg hs]
      refine .inr ⟨_, rfl, ?_⟩
      rintro ⟨-, ms, hv, hl⟩
      refine hs ?_
      rw [hv, Json.get?, hl]
      rfl

theorem versionOf_direct (r : Response) :
    (∃ v, (Calls.direct .plain r >>= versionOf) = .ok v ∧ r.Dates v) ∨
    (∃ text, (Calls.direct .plain r >>= versionOf) = .error (.protocol text) ∧ r.error = none ∧
      ∀ v, ¬ r.Dates v) ∨
    ∃ e, (Calls.direct .plain r >>= versionOf) = .error (.rpc e) ∧ r.error = some e := by
  rw [Calls.direct_plain, Response.outcome]
  cases he : r.error with
  | some e => exact .inr (.inr ⟨e, rfl, rfl⟩)
  | none =>
    show (∃ v, versionOf r.result = .ok v ∧ r.Dates v) ∨
      (∃ text, versionOf r.result = .error (.protocol text) ∧ _) ∨ _
    unfold versionOf
    split
    · rename_i text hv
      cases ht : Version.ofText? text with
      | some version => exact .inl ⟨version, rfl, he, text, hv, ht⟩
      | none =>
        refine .inr (.inl ⟨_, rfl, rfl, ?_⟩)
        rintro v ⟨-, text', hv', ht'⟩
        cases hv.symm.trans hv'
        cases ht.symm.trans ht'
    · rename_i hno
      refine .inr (.inl ⟨_, rfl, rfl, ?_⟩)
      rintro v ⟨-, text', hv', -⟩
      exact hno text' hv'

/-- What the task does with an answer: the handshake is over, or it asks for the version. -/
theorem next_answered (hb : g.Follows before) (r : Response) (task : Nat) (m : Link) :
    (∃ out, Greeting.Verdict (before ++ [(g.method, r)]) out ∧
      g.next task m (Calls.direct .plain r) = m.finish task out) ∨
    Greeting.version.Follows (before ++ [(g.method, r)]) ∧
      g.next task m (Calls.direct .plain r) =
        proceed task (m.begin (.caller task) Method.systemVersion .null .plain)
          Greeting.version.task (Greeting.version.next task) := by
  cases g with
  | login =>
    obtain rfl : before = [] := hb
    simp only [Greeting.next, loginAnswered]
    rcases loginOutcome_direct r with ⟨ho, ha⟩ | ⟨text, ho, ha⟩ <;> rw [ho]
    · exact .inr ⟨⟨r, ha, rfl⟩, rfl⟩
    · exact .inl ⟨_, .refused ha text, rfl⟩
  | version =>
    obtain ⟨a, ha, rfl⟩ := hb
    simp only [Greeting.next, versionAnswered]
    rcases versionOf_direct r with ⟨v, ho, hv⟩ | ⟨text, ho, he, hno⟩ | ⟨e, ho, he⟩ <;> rw [ho]
    · exact .inl ⟨_, .greeted ha hv, rfl⟩
    · exact .inl ⟨_, .undated ha he hno text, rfl⟩
    · exact .inl ⟨_, .failed ha he, rfl⟩

/-- Where a handshake stands that has seen the answer to a request. -/
theorem Stands.next (hb : g.Follows before) (r : Response)
    (hclosed : ∀ reason, l.calls.closed = some reason → reason.isSilence = true)
    (hopen : l.calls.closed = none → l.line = [] ∧ l.writable = true)
    (hr : l.results.lookup task = none) (hs : l.slots.lookup l.calls.nextId = none) :
    (g.next task l (Calls.direct .plain r)).Stands task (before ++ [(g.method, r)]) := by
  rcases next_answered hb r task l with ⟨out, hv, he⟩ | ⟨hversion, he⟩ <;> rw [he]
  · exact .ended Table.lookup_erase_self Table.lookup_insert_self hv
  · exact .begin (g := .version) hversion hclosed hopen hr hs

/-! ## Who waits for the end

Nobody undertakes to wait for the reader before somebody closes the connection. -/

theorem joinable_next (g : Greeting) (task : Nat) (m : Link) (o : Outcome) :
    (g.next task m o).joinable = m.joinable := by
  cases g with
  | login =>
    simp only [Greeting.next, loginAnswered]
    split
    · rfl
    · have hbegin := (Aside.begin m (.caller task) Method.systemVersion .null .plain).joinable
      revert hbegin
      generalize m.begin (.caller task) Method.systemVersion .null .plain = p
      obtain ⟨m', r⟩ := p
      cases r <;> exact id
  | version => rfl

theorem joinable_await (l : Link) (x : Exchange) (w : Wakeup) (g : Greeting) (task : Nat) :
    (proceed task (l.await x .no w) g.task (g.next task)).joinable = l.joinable := by
  have hnext : ∀ o, (g.next task (l.forget x.id) o).joinable = l.joinable := fun o =>
    joinable_next g task _ o
  unfold await
  rw [if_neg (by simp)]
  split
  · exact hnext _
  · split
    · exact hnext _
    · rfl

/-! ## The task itself -/

theorem await_cases (l : Link) (x : Exchange) (w : Wakeup) :
    (∃ o, l.endOf? x.id = some o ∧ l.await x .no w = (l.forget x.id, .over o)) ∨
    (l.await x .no w = (l, .going x)) ∨
    ∃ text, l.await x .no w = (l.forget x.id, .over (.error (.timeout text))) := by
  unfold await
  rw [if_neg (by simp)]
  split
  · rename_i o ho
    exact .inl ⟨o, ho, rfl⟩
  · split
    · exact .inr (.inr ⟨_, rfl⟩)
    · exact .inr (.inl rfl)

section
variable (hr : l.results.lookup task = none) (hx : x.stage ≠ .queued) (hk : x.kind = .plain)
  (hm : x.method = g.method)
include hr hx hk hm

theorem Asking.setTask : (l.setTask task (g.task x)).Asking task g x :=
  ⟨Table.lookup_insert_self, hr, hx, hk, hm⟩

/-- A request that is not answered is not answered by looking. -/
theorem Stands.await (hb : g.Follows told) (hclosed : l.closedError.isSilence = true)
    (hs : ∀ o, l.slots.lookup x.id = some (.filled o) → ∃ why, o = .error why ∧ why.isSilence = true)
    (w : Wakeup) :
    (proceed task (l.await x .no w) g.task (g.next task)).Stands task told := by
  rcases await_cases l x w with ⟨o, ho, he⟩ | he | ⟨text, he⟩ <;> rw [he]
  · obtain ⟨how, hslot, rfl⟩ := Option.map_eq_some_iff.1 ho
    cases how with
    | filled o =>
      obtain ⟨why, rfl, hw⟩ := hs o hslot
      exact .silent hb hw _
    | abandoned => exact .silent hb hclosed _
  · exact .asking (Asking.setTask hr hx hk hm) hb hs
  · exact .silent hb (rfl : (LinkError.timeout text).isSilence = true) _

end

/-- An answer that is there is seen. -/
theorem await_answered (hs : l.slots.lookup x.id = some (.filled o)) (w : Wakeup) :
    l.await x .no w = (l.forget x.id, .over o) := by
  unfold await
  rw [if_neg (by simp)]
  simp only [endOf?, hs, Option.map_some]

/-- A handshake takes an answer into account that is there. -/
theorem Stands.see (h : l.Asking task g x) (hb : g.Follows before) (hu : l.Unforced)
    {line : List Actor} (hline : l.calls.closed = none → line = [])
    (hs : l.slots.lookup x.id = some (.filled (Calls.direct .plain r))) (w : Wakeup) :
    (proceed task (({ l with line }).await { x with stage := .waiting } .no w) g.task
      (g.next task)).Stands task (before ++ [(g.method, r)]) := by
  have hi := hu.reachable.inv
  have hclosed : (({ l with line }).forget x.id).calls.closed = l.calls.closed :=
    closed_perform { l with line } (.cancel x.id)
  have hfree : (Table.erase l.slots x.id).lookup l.calls.nextId = none := by
    have hne : l.calls.nextId ≠ x.id := fun he =>
      Nat.lt_irrefl _ (he ▸ hu.reachable.spent.admitted _ _ hs)
    rw [Table.lookup_erase_ne hne]
    cases hslot : l.slots.lookup l.calls.nextId with
    | none => rfl
    | some how => exact absurd (hu.reachable.spent.admitted _ _ hslot) (Nat.lt_irrefl _)
  rw [await_answered (l := { l with line }) (x := { x with stage := .waiting }) hs]
  refine .next (l := ({ l with line }).forget x.id) hb r (fun reason hc => ?_) (fun hc => ?_)
    h.untold hfree
  · rw [hclosed] at hc
    exact hu.isSilence hc
  · rw [hclosed] at hc
    exact ⟨hline hc, hi.writable_of_open hc⟩

/-- What the task does with its request when it goes on: its write fails, or it waits for its write,
or it looks for the answer. -/
theorem Asking.turn (h : l.Asking task g x) (ha : l.Alone task) (hl : l.Tidy) (hi : l.Inv)
    (w : Wakeup) (eager : Bool) :
    (((∃ reason, w = .writeFailed reason) ∨ w = .writeTimedOut) ∧
      ∃ m text, m.joinable = l.joinable ∧
        l.step (.resume task w eager) = g.next task m (.error (.transport text))) ∨
    (w ≠ .written ∧ l.step (.resume task w eager) = l.setTask task (g.task x)) ∨
    ∃ line w', (l.calls.closed = none → line = []) ∧ l.step (.resume task w eager) =
      proceed task (({ l with line }).await { x with stage := .waiting } .no w') g.task
        (g.next task) := by
  have hmem : l.calls.closed = none → ∀ b ∈ l.line, b = .caller task := fun hc _ =>
    ha.mem_line hl hi hc
  simp only [step, h.waits, resumeTask_greeting, Link.resume]
  cases hstage : x.stage with
  | queued => exact absurd hstage h.entered
  | waiting =>
    have hx : x = { x with stage := .waiting } := by rw [← hstage]
    refine .inr (.inr ⟨l.line, w, fun hc => ?_, by rw [← hx]⟩)
    refine List.eq_nil_iff_forall_not_mem.2 fun b hb => ?_
    obtain rfl := hmem hc b hb
    have hin := (hl.queued.mem _).1 hb
    rw [h.hand] at hin
    simp [Hand.making, hstage] at hin
  | writing =>
    cases w with
    | written =>
      refine .inr (.inr ⟨(l.leaveLine (.caller task)).line, .nothing, fun hc => ?_, rfl⟩)
      refine List.eq_nil_iff_forall_not_mem.2 fun b hb => ?_
      obtain ⟨hb, hne⟩ := List.mem_filter.1 hb
      exact absurd (hmem hc b hb) (by simpa using hne)
    | writeFailed reason =>
      exact .inl ⟨.inl ⟨reason, rfl⟩, _, _, (Aside.failWrite l _ x _).joinable, rfl⟩
    | writeTimedOut => exact .inl ⟨.inr rfl, _, _, (Aside.failWrite l _ x _).joinable, rfl⟩
    | nothing | late => exact .inr (.inl ⟨by simp, rfl⟩)

/-- Where the task gets with its request when it goes on. -/
theorem Stands.resume (h : l.Stands task told) (hu : l.Unforced) (ha : l.Alone task) (w : Wakeup)
    (eager : Bool) (hw : l.HasAnswer task →
      (∀ reason, w ≠ .writeFailed reason) ∧ w ≠ .writeTimedOut) :
    (l.step (.resume task w eager)).Stands task told := by
  have hi := hu.reachable.inv
  have hl := hu.reachable.tidy
  cases h with
  | ended ht hr hv =>
    rw [show l.step (.resume task w eager) = l by simp only [step, ht]]
    exact .ended ht hr hv
  | @asking g x h hg hs =>
    rcases h.turn ha hl hi w eager with ⟨-, m, text, -, he⟩ | ⟨-, he⟩ | ⟨line, w', -, he⟩ <;> rw [he]
    · exact .silent hg (rfl : (LinkError.transport text).isSilence = true) m
    · exact .asking (Asking.setTask h.untold h.entered h.kind h.method) hg hs
    · exact .await (l := { l with line }) (x := { x with stage := .waiting }) h.untold (by simp)
        h.kind h.method hg hu.closedError hs w'
  | @answered g x before r h hg ht hs =>
    subst ht
    rcases h.turn ha hl hi w eager with ⟨hfail, -⟩ | ⟨-, he⟩ | ⟨line, w', hline, he⟩
    · obtain ⟨hw, hw'⟩ := hw ⟨x, r, h.call, hs⟩
      rcases hfail with ⟨reason, he⟩ | he
      · exact absurd he (hw reason)
      · exact absurd he hw'
    · rw [he]
      exact .answered (Asking.setTask h.untold h.entered h.kind h.method) hg rfl hs
    · rw [he]
      exact .see h hg hu hline hs w'

theorem Stands.joinable_resume (h : l.Stands task told) (ha : l.Alone task) (hl : l.Tidy)
    (hi : l.Inv) (w : Wakeup) (eager : Bool) :
    (l.step (.resume task w eager)).joinable = l.joinable := by
  cases h with
  | ended ht => simp only [step, ht]
  | asking h | answered h =>
    rcases h.turn ha hl hi w eager with ⟨-, m, text, hm, he⟩ | ⟨-, he⟩ | ⟨line, w', -, he⟩ <;>
      rw [he]
    · exact (joinable_next _ task m _).trans hm
    · rfl
    · exact joinable_await { l with line } _ w' _ task

/-! ## Events -/

/-- The slot of a request that is in hand is filled by the server's answer, or by the end of the
connection. -/
theorem slot_told (hl : l.Tidy) (hi : l.Inv) (hx : l.callOf (.caller task) = some x)
    (hk : x.kind = .plain) (ha : e.actor? ≠ some (.caller task))
    (hnone : l.slots.lookup x.id = none) :
    (∃ r, l.answerTo? task e = some (x.method, r) ∧
      (l.step e).slots.lookup x.id = some (.filled (Calls.direct .plain r))) ∨
    l.answerTo? task e = none ∧ ∀ o, (l.step e).slots.lookup x.id = some (.filled o) →
      ∃ reason, (l.step e).calls.closed = some reason ∧ o = .error reason := by
  have hquiet : l.dispatched? e = none → l.answerTo? task e = none := fun hd => by
    simp only [answerTo?, hx, hd]
  have hend : ∀ {m : Link} {o : Outcome}, (l.slots.lookup x.id = some (.filled o) ∨
      ∃ reason, m.calls.closed = some reason ∧
        Slot.End.filled o = .filled (.error reason)) →
      ∃ reason, m.calls.closed = some reason ∧ o = .error reason := by
    rintro m o (hs | ⟨reason, hc, he⟩)
    · cases hnone.symm.trans hs
    · cases he
      exact ⟨reason, hc, rfl⟩
  cases hactor : e.actor? with
  | some b =>
    exact .inr ⟨hquiet (dispatched?_of_turn hactor),
      fun o hs => hend (Deeds.slot_of_end (step_turn hactor) hs)⟩
  | none =>
    cases e with
    | fire _ | subscriber _ _ => exact .inr ⟨hquiet rfl, fun o hs => hend (.inl hs)⟩
    | teardown why => exact .inr ⟨hquiet rfl, fun o hs => hend (slot_of_teardown hs)⟩
    | receive i =>
      rw [step_dispatched hactor]
      cases hd : l.dispatched? (.receive i) with
      | none => exact .inr ⟨hquiet hd, fun o hs => hend (m := l) (.inl hs)⟩
      | some op =>
        obtain ⟨text, ho⟩ := dispatched?_text hd
        have hop := Op.isInbound_of_text ho
        simp only [Option.map_some, Option.getD_some]
        -- only an answer with its id fills the slot
        have hfilled : ∀ {o}, (l.perform op).slots.lookup x.id = some (.filled o) →
            ∃ r, op = .answer r ∧ r.id = x.id := by
          intro o hs
          rw [slots_perform, if_neg (by rintro rfl; cases hop), hnone, Option.or_none] at hs
          obtain ⟨r, hr, hid, -⟩ := answer_of_filled hl hx hk hop (List.mem_of_getLast? hs)
          exact ⟨r, hr, hid⟩
        by_cases hown : ∃ r, op = .answer r ∧ r.id = x.id
        · obtain ⟨r, rfl, hid⟩ := hown
          have hp : l.calls.pending.lookup r.id = some .plain :=
            hid ▸ pending_of_callOf hl hx hk hnone
          refine .inl ⟨r, ?_, ?_⟩
          · simp only [answerTo?, hx, hd]
            rw [if_pos ⟨hid, by rw [← hid, hp]; rfl⟩]
          · rw [← hid, Calls.direct_plain, Response.outcome]
            cases answered_perform hi hp with
            | failed hr hm => rw [hr]; exact hm.slot
            | returned hr hm => rw [hr]; exact hm.slot
        · refine .inr ⟨?_, fun o hs => absurd (hfilled hs) hown⟩
          cases op with
          | answer r =>
            simp only [answerTo?, hx, hd]
            rw [if_neg fun h => hown ⟨r, rfl, h.1⟩]
          | _ => simp only [answerTo?, hx, hd]
    | _ => cases hactor

/-- No answer comes twice. -/
theorem answerTo?_of_slot (h : l.Spent) (hx : l.callOf (.caller task) = some x)
    {how : Slot.End} (hs : l.slots.lookup x.id = some how) : l.answerTo? task e = none := by
  have hnone : ¬ (l.calls.pending.lookup x.id).isSome = true := fun hp =>
    h.ended _ _ hs (.inl (Table.lookup_isSome.1 hp))
  simp only [answerTo?, hx]
  split
  · rename_i y r hy hd
    cases hy
    exact if_neg fun h => hnone h.2
  · rfl

theorem answerTo?_of_turn (ha : e.actor? = some a) : l.answerTo? task e = none := by
  simp only [answerTo?, dispatched?_of_turn ha]
  split
  · rename_i h
    cases h
  · rfl

/-- **A handshake goes on as the answers say**, unless it is given up or its connection is ended
from outside, and if an answer that is there to see is seen before a write fails. -/
theorem Stands.event (h : l.Stands task told) (hu : l.Unforced) (ha : l.Alone task)
    (he : e.Within task)
    (hw : l.HasAnswer task → ∀ w eager, e = .resume task w eager →
      (∀ reason, w ≠ .writeFailed reason) ∧ w ≠ .writeTimedOut) :
    (l.step e).Stands task (told ++ (l.answerTo? task e).toList) := by
  have hi := hu.reachable.inv
  have hl := hu.reachable.tidy
  by_cases hown : e.actor? = some (.caller task)
  · rw [answerTo?_of_turn hown, Option.toList_none, List.append_nil]
    cases e with
    | start n o => exact absurd rfl (he.start n o)
    | handshake n c => exact absurd rfl (he.handshake n c)
    | resume n w eager =>
      cases hown
      exact h.resume hu ha w eager fun has => hw has w eager rfl
    | drop n =>
      cases hown
      exact absurd rfl he.drop
    | receive i => cases i <;> cases hown
    | _ => cases hown
  · have hplace : SamePlace l (l.step e) (.caller task) := step_others hown
    cases h with
    | ended ht hr hv =>
      have hnone : l.answerTo? task e = none := by simp [answerTo?, callOf, ht]
      rw [hnone, Option.toList_none, List.append_nil]
      exact .ended (hplace.1.trans ht) (hplace.2.trans hr) hv
    | @answered g x before r h hg ht hs =>
      rw [answerTo?_of_slot hu.reachable.spent h.call hs, Option.toList_none, List.append_nil]
      have hknown := (hl.event e).known_of_callOf (h.congr hplace).call
      exact .answered (h.congr hplace) hg ht (hu.reachable.spent.slot_event hknown hs)
    | @asking g x h hg hs =>
      have h' := h.congr hplace
      cases hslot : l.slots.lookup x.id with
      | some how =>
        have hknown := (hl.event e).known_of_callOf h'.call
        have hkept := hu.reachable.spent.slot_event hknown hslot
        rw [answerTo?_of_slot hu.reachable.spent h.call hslot, Option.toList_none, List.append_nil]
        exact .asking h' hg fun o ho => hs o (hslot.trans (hkept.symm.trans ho))
      | none =>
        rcases slot_told hl hi h.call h.kind hown hslot with ⟨r, hr, hnew⟩ | ⟨hr, hnew⟩ <;> rw [hr]
        · exact .answered h' hg (by rw [h.method]; rfl) hnew
        · rw [Option.toList_none, List.append_nil]
          refine .asking h' hg fun o ho => ?_
          obtain ⟨reason, hc, rfl⟩ := hnew o ho
          exact ⟨reason, rfl, (hu.event he.teardown).isSilence hc⟩

/-! ## The end of a handshake -/

theorem isOver_finish (m : Link) (out : Result) : (m.finish task out).IsOver task :=
  ⟨Table.lookup_erase_self, out, Table.lookup_insert_self⟩

theorem next_isOver (g : Greeting) (m : Link) (hw : why.isSilence = true) :
    (g.next task m (.error why)).IsOver task := by
  rw [next_silence g task m hw]
  exact isOver_finish m _

/-- **A handshake comes to its end** when its task goes on, if no more requests follow the answers
that it has got, or if the connection has ended. -/
theorem Stands.comes_to_end (h : l.Stands task told) (hu : l.Unforced) (ha : l.Alone task)
    (hdone : (∀ g : Greeting, ¬ g.Follows told) ∨ l.calls.closed ≠ none) :
    (l.step (.resume task .written false)).IsOver task := by
  have hi := hu.reachable.inv
  have hl := hu.reachable.tidy
  cases h with
  | ended ht hr hv =>
    rw [show l.step (.resume task .written false) = l by simp only [step, ht]]
    exact ⟨ht, _, hr⟩
  | @asking g x h hg hs =>
    rcases h.turn ha hl hi .written false with ⟨-, m, text, -, he⟩ | ⟨hw, -⟩ | ⟨line, w', -, he⟩
    · rw [he]
      exact next_isOver g m rfl
    · exact absurd rfl hw
    -- the end of the connection is there to see
    obtain ⟨reason, hc⟩ := Option.ne_none_iff_exists'.1 (hdone.resolve_left fun hno => hno g hg)
    obtain ⟨how, hslot⟩ := hl.slot_of_closed hc h.call
    rw [he]
    rcases await_cases { l with line } { x with stage := .waiting } w' with
      ⟨o, ho, hawait⟩ | hawait | ⟨text, hawait⟩
    · have ho : ({ l with line }).endOf? x.id = some o := ho
      rw [hawait]
      cases how with
      | filled out =>
        rw [endOf?, hslot] at ho
        cases ho
        obtain ⟨why, rfl, hw⟩ := hs out hslot
        exact next_isOver g _ hw
      | abandoned =>
        rw [endOf?, hslot] at ho
        cases ho
        exact next_isOver g _ hu.closedError
    · obtain ⟨m, o, hends⟩ := await_ends (l := { l with line })
        (x := { x with stage := .waiting }) hslot .no w'
      rw [hends] at hawait
      cases hawait
    · rw [hawait]
      exact next_isOver g _ (rfl : (LinkError.timeout text).isSilence = true)
  | @answered g x before r h hg ht hs =>
    subst ht
    rcases h.turn ha hl hi .written false with ⟨hfail, -⟩ | ⟨hw, -⟩ | ⟨line, w', -, he⟩
    · rcases hfail with ⟨_, ⟨⟩⟩ | ⟨⟨⟩⟩
    · exact absurd rfl hw
    rw [he, await_answered (l := { l with line }) (x := { x with stage := .waiting }) hs]
    show (g.next task (({ l with line }).forget x.id) (Calls.direct .plain r)).IsOver task
    rcases next_answered hg r task (({ l with line }).forget x.id) with ⟨out, -, hnext⟩ |
      ⟨hversion, hnext⟩ <;> rw [hnext]
    · exact isOver_finish _ out
    · obtain ⟨reason, hc⟩ := Option.ne_none_iff_exists'.1
        (hdone.resolve_left fun hno => hno .version hversion)
      have hclosed : (({ l with line }).forget x.id).calls.closed = some reason :=
        (closed_perform { l with line } (.cancel x.id)).trans hc
      rw [begin_of_closed _ hclosed]
      exact next_isOver .version _ (hu.isSilence hc)

end Link

end ServerLink
