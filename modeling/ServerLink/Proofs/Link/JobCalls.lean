import ServerLink.Proofs.Json.Lines
import ServerLink.Proofs.Link.Slots
import ServerLink.Proofs.Link.Subscribing

/-!
# Tasks that start jobs

Whoever is to call a method that starts a job first makes sure that the server sends job reports.
That has one outcome of a few (`Ensured`, `Attempted`). What other tasks do leaves the question for
job reports as it is (`Leaves`).
-/

namespace ServerLink

/-- The request by which a task asks for job reports. -/
def question (id : Nat) : Request :=
  { id, method := Method.subscribe, params := .array [.string jobCollection] }

namespace Task

/-- A task that calls a method which starts a job. -/
def CallsJob (method : String) (params : Json) (token : Option Nat) (t : Task) : Prop :=
  ∃ x, t = .call x token ∧ x.kind = .job ∧
    Request.frame { id := x.id, method, params } = .ok x.frame

theorem not_callsJob_askJobs {x : Exchange} {method method' : String} {params params' : Json}
    {token token' : Option Nat} :
    ¬ (Task.askJobs x method params token).CallsJob method' params' token' := by
  rintro ⟨_, ⟨⟩, _⟩

/-- How far a task has got that is to call a method which starts a job. -/
inductive Starts (method : String) (params : Json) (token : Option Nat) : Task → Prop
  | awaits : Starts method params token (.awaitJobs method params token)
  | asks {x : Exchange} (hkind : x.kind = .plain) (hframe : (question x.id).frame = .ok x.frame) :
      Starts method params token (.askJobs x method params token)
  | calls {t : Task} (ht : t.CallsJob method params token) : Starts method params token t

/-- A task that has nothing to do with jobs. -/
def IsPlain : Task → Prop
  | .call x _ | .subscribe _ x | .login x | .readVersion x => x.kind = .plain
  | .awaitJobs _ _ _ | .askJobs _ _ _ _ => False
  | .close _ | .join => True

end Task

namespace Link

/-- What a call leaves alone that is begun, or goes on. All that it writes is its request. -/
structure Steady (l : Link) (p : Link × Exchange.Progress) : Prop where
  stream : p.1.jobStream = l.jobStream
  ended : ∀ o, p.2 = .over o → p.1.sent = l.sent
  going : ∀ x, p.2 = .going x →
    p.1.sent = l.sent ∨ x.stage = .writing ∧ p.1.sent = l.sent ++ [x.frame]

/-- A turn has written nothing, or the request of the call that the actor has in hand. -/
def Written (a : Actor) (l m : Link) : Prop :=
  m.sent = l.sent ∨
    ∃ x, m.callOf a = some x ∧ x.stage = .writing ∧ m.sent = l.sent ++ [x.frame]

/-- A turn of a task, or a part of one, that leaves the question for job reports as it is, and
brings the task to one of these. -/
structure Leaves (task : Nat) (P : Task → Prop) (l m : Link) : Prop where
  written : Written (.caller task) l m
  stream : m.jobStream = l.jobStream
  ends : ∀ t, m.tasks.lookup task = some t → P t

/-- What has become of a task that makes sure that the server sends job reports. -/
inductive Ensured (l : Link) (task : Nat) (method : String) (params : Json) (token : Option Nat)
    (m : Link) : Prop
  | calls (hj : l.jobStream = .live) (hm : Leaves task (Task.CallsJob method params token) l m)
  /-- Another task is asking. -/
  | awaits {other : Nat} (hj : l.jobStream = .asking other)
      (hm : m = l.setTask task (.awaitJobs method params token))
  | asks {x : Exchange} (hj : l.jobStream = .unasked) (hid : x.id = l.calls.nextId)
      (hkind : x.kind = .plain) (hframe : (question x.id).frame = .ok x.frame)
      (ht : m.tasks.lookup task = some (.askJobs x method params token))
      (hm : m.jobStream = .asking task) (hw : Written (.caller task) l m)
      (hc : m.calls.closed = none)
  | denied {reason : LinkError} (hj : l.jobStream = .unasked)
      (hc : l.calls.closed = some reason) (hm : m = l.finish task (.error reason))

/-- What has become of a task that asks for job reports, by an event that is its turn. -/
inductive Attempted (l : Link) (e : Event) (task : Nat) (x : Exchange) (method : String)
    (params : Json) (token : Option Nat) (m : Link) : Prop
  | going {y : Exchange} (ht : m.tasks.lookup task = some (.askJobs y method params token))
      (hy : y = { x with stage := y.stage }) (hj : m.jobStream = l.jobStream)
      (hw : Written (.caller task) l m) (hs : m.slots = l.slots)
      (hc : m.calls.closed = l.calls.closed)
  | accepted {v : Json} (hs : l.slots.lookup x.id = some (.filled (.ok v)))
      (hv : acknowledges v = true) (hj : m.jobStream = .live) (hw : Written (.caller task) l m)
      (ht : ∀ t, m.tasks.lookup task = some t → t.CallsJob method params token)
      (hc : m.calls.closed = l.calls.closed)
  | refused {v : Json} (hs : l.slots.lookup x.id = some (.filled (.ok v)))
      (hv : acknowledges v = false) (ht : m.tasks.lookup task = none)
      (hr : m.results.lookup task = some (.error (.subscriptionRejected jobCollection)))
      (hj : m.jobStream = .unasked) (hw : m.sent = l.sent) (hc : m.calls.closed = l.calls.closed)
  | failed {why : LinkError} (ht : m.tasks.lookup task = none)
      (hr : m.results.lookup task = some (.error why)) (hj : m.jobStream = .unasked)
      (hw : m.sent = l.sent) (hc : m.calls.closed = l.calls.closed)
      (hs : l.isOpen = true → ∀ v, l.slots.lookup x.id ≠ some (.filled (.ok v)))
  /-- The write of its request has failed, which ends the connection. -/
  | unwritten {text : String} (ht : m.tasks.lookup task = none)
      (hr : m.results.lookup task = some (.error (.transport text))) (hj : m.jobStream = .unasked)
      (hw : m.sent = l.sent)
      (hc : m.calls.closed = (l.teardown (.transport text)).calls.closed)
  | dropped (he : e = .drop task) (ht : m.tasks.lookup task = none)
      (hr : m.results.lookup task = l.results.lookup task) (hj : m.jobStream = .unasked)
      (hw : m.sent = l.sent) (hc : m.calls.closed = l.calls.closed)

variable {l m n : Link} {a : Actor} {x y : Exchange} {t : Task} {task : Nat} {method : String}
  {params : Json} {token : Option Nat} {kind : Call.Kind} {P : Task → Prop} {e : Event}

/-! ## The question -/

theorem utf8ByteSize_toString (id : Nat) : (toString (id % 2 ^ 64)).utf8ByteSize ≤ 80 := by
  have hlen : (Nat.repr (id % 2 ^ 64)).length ≤ 20 :=
    Nat.repr_length _ 20 (by omega) (Nat.lt_of_lt_of_le (Nat.mod_lt id (by omega)) (by omega))
  have hsize : ∀ cs : List Char, String.utf8Len cs ≤ 4 * cs.length := by
    intro cs
    induction cs with
    | nil => rfl
    | cons c cs ih =>
      have := c.utf8Size_le_four
      simp only [String.utf8Len_cons, List.length_cons]
      omega
  have hchars := hsize (Nat.repr (id % 2 ^ 64)).toList
  rw [← String.utf8ByteSize_ofList, String.ofList_toList, String.length_toList] at hchars
  exact Nat.le_trans hchars (Nat.mul_le_mul_left 4 hlen)

/-- The question is never too large to be asked. -/
theorem question_frame (id : Nat) : ∃ frame, (question id).frame = .ok frame := by
  suffices (question id).toJson.render.utf8ByteSize ≤ maxFrameSize from
    ⟨_, if_neg (Nat.not_lt.2 this)⟩
  have hdoc : (question id).toJson = .object [("jsonrpc", .string "2.0"), ("id", .ofNat id),
      ("method", .string "core.subscribe"), ("params", .array [.string "core.get_jobs"])] := rfl
  have hescape : ∀ s ∈ ["jsonrpc", "2.0", "id", "method", "core.subscribe", "params",
      "core.get_jobs"], String.join (s.toList.map Json.escape) = s := by decide +kernel
  have hsize : ∀ p ∈ [("", 0), (":", 1), ("\"", 1), ("jsonrpc", 7), ("2.0", 3), ("id", 2),
      ("method", 6), ("core.subscribe", 14), ("params", 6), ("core.get_jobs", 13)],
      p.1.utf8ByteSize = p.2 := by decide
  have hid : (Json.Number.ofNat id).text.utf8ByteSize ≤ 80 := utf8ByteSize_toString id
  have hbrace : '\x7b'.utf8Size ≤ 4 ∧ '\x7d'.utf8Size ≤ 4 ∧ '['.utf8Size ≤ 4 ∧
      ']'.utf8Size ≤ 4 ∧ ','.utf8Size ≤ 4 := by simp only [Char.utf8Size_le_four, and_self]
  simp only [List.forall_mem_cons] at hescape hsize
  simp only [hdoc, Json.render, Json.put, Json.putMembers, Json.putItems, Json.Style.newline,
    Json.compactStyle, Bool.false_eq_true, ↓reduceIte, Json.putString_eq, Json.ofNat, hescape,
    String.utf8ByteSize_push, String.utf8ByteSize_append, hsize, maxFrameSize]
  omega

/-! ## Calls -/

theorem enter_steady (l : Link) (a : Actor) (x : Exchange) : Steady l (l.enter a x) := by
  unfold enter
  split
  · split
    · refine ⟨rfl, by rintro _ ⟨⟩, ?_⟩
      rintro _ ⟨⟩
      exact .inr ⟨rfl, rfl⟩
    · exact ⟨rfl, fun _ _ => rfl, by rintro _ ⟨⟩⟩
  · refine ⟨rfl, by rintro _ ⟨⟩, ?_⟩
    rintro _ ⟨⟩
    exact .inl rfl

theorem Steady.congr {p : Link × Exchange.Progress} (h : Steady n p) (hs : n.sent = l.sent)
    (hj : n.jobStream = l.jobStream) : Steady l p :=
  ⟨h.stream.trans hj, fun o ho => (h.ended o ho).trans hs, fun x hx => hs ▸ h.going x hx⟩

/-- A call is refused after the end, or is too large, or takes its place in the line. -/
theorem begin_cases (l : Link) (a : Actor) (method : String) (params : Json) (kind : Call.Kind) :
    (∃ e, l.calls.closed = some e ∧ l.begin a method params kind = (l, .over (.error e))) ∨
    (∃ e, Request.frame { id := l.calls.nextId, method, params } = .error e ∧
      l.begin a method params kind = ((l.perform (.register kind)).forget l.calls.nextId,
        .over (.error (.ofFrameError e)))) ∨
    ∃ frame, Request.frame { id := l.calls.nextId, method, params } = .ok frame ∧
      l.begin a method params kind = ((l.perform (.register kind)).joinLine a).enter a
        ⟨l.calls.nextId, method, kind, frame, .queued⟩ := by
  cases hc : l.calls.closed with
  | some e => exact .inl ⟨e, rfl, begin_of_closed l hc a method params kind⟩
  | none =>
    right
    simp only [begin, Calls.register_ok hc, perform, Calls.step]
    cases hf : Request.frame { id := l.calls.nextId, method, params } with
    | error e => exact .inl ⟨e, rfl, rfl⟩
    | ok frame => exact .inr ⟨frame, rfl, rfl⟩

theorem begin_steady (l : Link) (a : Actor) (method : String) (params : Json) (kind : Call.Kind) :
    Steady l (l.begin a method params kind) := by
  rcases begin_cases l a method params kind with ⟨e, -, hb⟩ | ⟨e, -, hb⟩ | ⟨frame, -, hb⟩ <;>
    rw [hb]
  · exact ⟨rfl, fun _ _ => rfl, by rintro _ ⟨⟩⟩
  · exact ⟨rfl, fun _ _ => rfl, by rintro _ ⟨⟩⟩
  · exact (enter_steady _ a _).congr rfl rfl

theorem enter_going (hy : (l.enter a x).2 = .going y) : y = { x with stage := y.stage } := by
  unfold enter at hy
  split_ifs at hy <;> cases hy <;> rfl

theorem begin_going (hx : (l.begin a method params kind).2 = .going x) :
    x.id = l.calls.nextId ∧ x.kind = kind ∧
      Request.frame { id := x.id, method, params } = .ok x.frame := by
  rcases begin_cases l a method params kind with ⟨e, -, hb⟩ | ⟨e, -, hb⟩ | ⟨frame, hf, hb⟩ <;>
    rw [hb] at hx
  · cases hx
  · cases hx
  · rw [enter_going hx]
    exact ⟨rfl, rfl, hf⟩

/-- Tasks have the same results, and the same may wait for the reader. -/
structure Aside (l m : Link) : Prop where
  results : m.results = l.results
  joinable : m.joinable = l.joinable

namespace Aside

theorem perform (l : Link) (o : Op) : l.Aside (l.perform o) := by
  constructor <;> rw [perform_frame]

theorem enter (l : Link) (a : Actor) (x : Exchange) : l.Aside (l.enter a x).1 := by
  unfold Link.enter
  split_ifs <;> exact ⟨rfl, rfl⟩

theorem begin (l : Link) (a : Actor) (method : String) (params : Json) (kind : Call.Kind) :
    l.Aside (l.begin a method params kind).1 := by
  rcases begin_cases l a method params kind with ⟨_, -, he⟩ | ⟨_, -, he⟩ | ⟨frame, -, he⟩ <;> rw [he]
  · exact ⟨rfl, rfl⟩
  · exact ⟨rfl, rfl⟩
  · have hperform := perform l (.register kind)
    have henter := enter ((l.perform (.register kind)).joinLine a) a
      ⟨l.calls.nextId, method, kind, frame, .queued⟩
    exact ⟨henter.results.trans hperform.results, henter.joinable.trans hperform.joinable⟩

theorem await (l : Link) (x : Exchange) (c : Cancellation) (w : Wakeup) :
    l.Aside (l.await x c w).1 := by
  unfold Link.await
  repeat' split
  all_goals exact ⟨rfl, rfl⟩

theorem failWrite (l : Link) (a : Actor) (x : Exchange) (text : String) :
    l.Aside (l.failWrite a x text).1 :=
  have h := perform (l.leaveLine a) (.teardown (.transport text))
  ⟨h.results, h.joinable⟩

theorem resume (l : Link) (a : Actor) (x : Exchange) (c : Cancellation) (w : Wakeup) :
    l.Aside (l.resume a x c w).1 := by
  have hawait := await (l.leaveLine a) { x with stage := .waiting } c .nothing
  unfold Link.resume
  repeat' split
  · exact enter l a x
  · exact ⟨hawait.results, hawait.joinable⟩
  · exact failWrite l a x _
  · exact failWrite l a x _
  · exact ⟨rfl, rfl⟩
  · exact ⟨rfl, rfl⟩
  · exact await l x c w

end Aside

/-- On an open connection a call is begun that is not too large. -/
theorem begin_of_open (a : Actor) (kind : Call.Kind) (hi : l.Inv) (hc : l.calls.closed = none)
    {frame : String} (hf : Request.frame { id := l.calls.nextId, method, params } = .ok frame) :
    ∃ m x, l.begin a method params kind = (m, .going x) := by
  rcases begin_cases l a method params kind with ⟨e, he, -⟩ | ⟨e, he, -⟩ | ⟨_, -, hb⟩
  · rw [hc] at he
    cases he
  · rw [hf] at he
    cases he
  · have hw : ((l.perform (.register kind)).joinLine a).writable = true := hi.writable_of_open hc
    rw [hb, enter, hw]
    split <;> exact ⟨_, _, rfl⟩

theorem await_steady (l : Link) (x : Exchange) (c : Cancellation) (w : Wakeup) :
    Steady l (l.await x c w) := by
  have hforget : ∀ o, Steady l (l.forget x.id, .over o) := fun o =>
    ⟨rfl, fun _ _ => rfl, by rintro _ ⟨⟩⟩
  unfold await
  split
  · exact hforget _
  · split
    · exact hforget _
    · split
      · exact hforget _
      · split
        · exact hforget _
        · exact ⟨rfl, by rintro _ ⟨⟩, fun _ _ => .inl rfl⟩

theorem await_going {c : Cancellation} {w : Wakeup} (hy : (l.await x c w).2 = .going y) :
    y = x := by
  unfold await at hy
  split at hy
  · cases hy
  · split at hy
    · cases hy
    · split_ifs at hy
      cases hy
      rfl

theorem failWrite_steady (l : Link) (a : Actor) (x : Exchange) (text : String) :
    Steady l (l.failWrite a x text) := by
  refine ⟨jobStream_perform (l.leaveLine a) (.teardown (.transport text)), fun _ _ => ?_,
    by rintro _ ⟨⟩⟩
  show ((l.leaveLine a).perform (.teardown (.transport text))).sent = _
  rw [perform_frame]
  rfl

theorem resume_steady (l : Link) (a : Actor) (x : Exchange) (c : Cancellation) (w : Wakeup) :
    Steady l (l.resume a x c w) := by
  unfold resume
  split
  · exact enter_steady l a x
  · split
    · exact (await_steady (l.leaveLine a) _ c .nothing).congr rfl rfl
    · exact failWrite_steady l a x _
    · exact failWrite_steady l a x _
    · exact ⟨rfl, by rintro _ ⟨⟩, fun _ _ => .inl rfl⟩
    · exact ⟨rfl, by rintro _ ⟨⟩, fun _ _ => .inl rfl⟩
  · exact await_steady l x c w

theorem resume_going {c : Cancellation} {w : Wakeup} (hy : (l.resume a x c w).2 = .going y) :
    y = { x with stage := y.stage } := by
  unfold resume at hy
  split at hy
  · exact enter_going hy
  · split at hy
    · rw [await_going hy]
    all_goals cases hy
    all_goals rfl
  · rw [await_going hy]

/-! ## Tasks that leave the question alone -/

/-- A task that goes on with a call has written nothing else. -/
theorem Steady.written (h : Steady l (m, .going x)) (ht : t.exchange? = some x) :
    Written (.caller task) l (m.setTask task t) := by
  refine (h.going x rfl).imp_right fun ⟨hstage, hsent⟩ => ⟨x, ?_, hstage, hsent⟩
  show (Table.insert m.tasks task t).lookup task >>= Task.exchange? = some x
  rw [Table.lookup_insert_self]
  exact ht

namespace Leaves

theorem congr (h : Leaves task P n m) (hs : n.sent = l.sent) (hj : n.jobStream = l.jobStream) :
    Leaves task P l m := ⟨by rw [Written, ← hs]; exact h.written, h.stream.trans hj, h.ends⟩

theorem finish (l : Link) (r : Result) : Leaves task P l (l.finish task r) :=
  ⟨.inl rfl, rfl, fun t ht => by cases Table.lookup_erase_self.symm.trans ht⟩

theorem setTask (ht : P t) : Leaves task P l (l.setTask task t) := by
  refine ⟨.inl rfl, rfl, fun u hu => ?_⟩
  cases Table.lookup_insert_self.symm.trans hu
  exact ht

theorem proceed {p : Link × Exchange.Progress} {going : Exchange → Task}
    {next : Link → Outcome → Link} (hp : Steady l p) (hx : ∀ x, (going x).exchange? = some x)
    (hgoing : ∀ x, p.2 = .going x → P (going x)) (hnext : ∀ m o, Leaves task P m (next m o)) :
    Leaves task P l (proceed task p going next) := by
  obtain ⟨m, r⟩ := p
  rcases r with x | o
  · have hset : Leaves task P m (m.setTask task (going x)) := .setTask (hgoing x rfl)
    exact ⟨hp.written (hx x), hp.stream, hset.ends⟩
  · exact (hnext m o).congr (hp.ended o rfl) hp.stream

theorem startJob (l : Link) : Leaves task (Task.CallsJob method params token) l
    (l.startJob task method params token) :=
  .proceed (begin_steady l _ _ _ _) (fun _ => rfl) (fun x hx => ⟨x, rfl, (begin_going hx).2⟩)
    fun m _ => .finish m _

theorem subscribeAnswered (s : Subscription) (m : Link) (o : Outcome) :
    Leaves task P m (subscribeAnswered task s m o) := by
  unfold Link.subscribeAnswered
  split
  · exact (finish { m with fanout := m.fanout.discard s } _).congr rfl rfl
  · split
    · exact finish m _
    · exact (finish { m with fanout := m.fanout.discard s } _).congr rfl rfl

theorem startSubscribe (l : Link) (collection : String) (filter : Json) :
    Leaves task Task.IsPlain l (l.startSubscribe task collection filter) := by
  unfold Link.startSubscribe
  split
  · exact finish l _
  · rename_i fanout _
    exact .proceed ((begin_steady { l with fanout } _ _ _ _).congr rfl rfl) (fun _ => rfl)
      (fun _ hx => (begin_going hx).2.1) (subscribeAnswered _)

theorem loginAnswered (m : Link) (o : Outcome) :
    Leaves task Task.IsPlain m (loginAnswered task m o) := by
  unfold Link.loginAnswered
  split
  · exact finish m _
  · exact .proceed (begin_steady m _ _ _ _) (fun _ => rfl) (fun _ hx => (begin_going hx).2.1)
      fun m _ => finish m _

theorem startHandshake (l : Link) (c : Credentials) :
    Leaves task Task.IsPlain l (l.startHandshake task c) :=
  .proceed (begin_steady l _ _ _ _) (fun _ => rfl) (fun _ hx => (begin_going hx).2.1) loginAnswered

theorem startJoin (l : Link) : Leaves task Task.IsPlain l (l.startJoin task) := by
  unfold Link.startJoin
  split
  · exact (setTask (l := { l with joinable := false }) trivial).congr rfl rfl
  · exact (finish { l with joinable := false } _).congr rfl rfl

theorem continueClose {p : Link × Option Release} (hs : p.1.sent = l.sent)
    (hj : p.1.jobStream = l.jobStream) : Leaves task Task.IsPlain l (continueClose task p) := by
  obtain ⟨m, stage⟩ := p
  cases stage with
  | some stage => exact (setTask (l := m) trivial).congr hs hj
  | none => exact (startJoin m).congr hs hj

end Leaves

/-- Giving the write half back writes no request. -/
theorem release_steady (l : Link) (a : Actor) (r : Release) :
    (l.release a r).1.sent = l.sent ∧ (l.release a r).1.jobStream = l.jobStream := by
  unfold release
  split
  · split
    · split <;> exact ⟨rfl, rfl⟩
    · exact ⟨rfl, rfl⟩
  · exact ⟨rfl, rfl⟩

theorem teardown_steady (l : Link) (reason : LinkError) :
    (l.teardown reason).sent = l.sent ∧ (l.teardown reason).jobStream = l.jobStream := by
  show (l.perform (.teardown reason)).sent = _ ∧ (l.perform (.teardown reason)).jobStream = _
  rw [perform_frame]
  exact ⟨rfl, rfl⟩

namespace Leaves

theorem startClose (l : Link) : Leaves task Task.IsPlain l (l.startClose task) := by
  obtain ⟨hs, hj⟩ := teardown_steady l (.closed "client closed")
  obtain ⟨hs', hj'⟩ := release_steady
    ((l.teardown (.closed "client closed")).joinLine (.caller task)) (.caller task) .queued
  exact .continueClose (hs'.trans hs) (hj'.trans hj)

theorem startTask {o : Operation} (ho : ∀ method params token, o ≠ .callAndWait method params token)
    (l : Link) (task : Nat) : Leaves task Task.IsPlain l (l.startTask task o) := by
  cases o with
  | call method params token =>
    exact .proceed (begin_steady l _ _ _ _) (fun _ => rfl) (fun x hx => (begin_going hx).2.1)
      fun m _ => .finish m _
  | callAndWait method params token => exact absurd rfl (ho _ _ _)
  | subscribe collection filter => exact .startSubscribe l collection filter
  | close => exact .startClose l

/-- A call goes on as the same call. -/
theorem resumeCall (hP : ∀ y : Exchange, y = { x with stage := y.stage } → P (.call y token))
    (w : Wakeup) (eager : Bool) : Leaves task P l (l.resumeTask task (.call x token) w eager) :=
  .proceed (resume_steady l _ _ _ _) (fun _ => rfl) (fun y hy => hP y (resume_going hy))
    fun m _ => .finish m _

theorem resumeTask (ht : l.tasks.lookup task = some t) (hp : t.IsPlain) (w : Wakeup)
    (eager : Bool) : Leaves task Task.IsPlain l (l.resumeTask task t w eager) := by
  have hsame : ∀ u, l.tasks.lookup task = some u → u.IsPlain := fun u hu => by
    cases ht.symm.trans hu
    exact hp
  have hkind : ∀ {x y : Exchange}, x.kind = .plain → y = { x with stage := y.stage } →
      y.kind = .plain := fun hx hy => by
    rw [hy]
    exact hx
  cases t with
  | call x token => exact .resumeCall (fun y hy => hkind hp hy) w eager
  | subscribe s x =>
    exact .proceed (resume_steady l _ _ _ _) (fun _ => rfl) (fun y hy => hkind hp (resume_going hy))
      (subscribeAnswered s)
  | login x =>
    exact .proceed (resume_steady l _ _ _ _) (fun _ => rfl) (fun y hy => hkind hp (resume_going hy))
      loginAnswered
  | readVersion x =>
    exact .proceed (resume_steady l _ _ _ _) (fun _ => rfl) (fun y hy => hkind hp (resume_going hy))
      fun m _ => finish m _
  | close stage =>
    cases stage with
    | queued =>
      obtain ⟨hs, hj⟩ := release_steady l (.caller task) .queued
      exact .continueClose hs hj
    | closing =>
      cases w with
      | nothing | late => exact ⟨.inl rfl, rfl, hsame⟩
      | written | writeFailed _ | writeTimedOut => exact .startJoin l
  | join =>
    dsimp only [Link.resumeTask]
    split
    · exact finish l _
    · exact ⟨.inl rfl, rfl, hsame⟩
  | awaitJobs _ _ _ | askJobs _ _ _ _ => exact hp.elim

theorem dropTask (hp : ∀ x method params token, t ≠ .askJobs x method params token) :
    Leaves task P l (l.dropTask task t) := by
  have hgone : ∀ m : Link, m.tasks = Table.erase l.tasks task → m.sent = l.sent →
      m.jobStream = l.jobStream → Leaves task P l m := fun m ht hs hj =>
    ⟨.inl hs, hj, fun u hu => by
      rw [ht, Table.lookup_erase_self] at hu
      cases hu⟩
  cases t with
  | askJobs x method params token => exact absurd rfl (hp x method params token)
  | _ => exact hgone _ rfl rfl rfl

end Leaves

/-! ## Making sure that the server sends job reports -/

theorem ensureJobs_ensured (hi : l.Inv) :
    Ensured l task method params token (l.ensureJobs task method params token) := by
  unfold ensureJobs
  cases hj : l.jobStream with
  | live => exact .calls hj (.startJob l)
  | asking other => exact .awaits hj rfl
  | unasked =>
    dsimp only
    cases hc : l.calls.closed with
    | some reason =>
      rw [begin_of_closed { l with jobStream := .asking task } hc]
      refine .denied hj hc ?_
      simp only [proceed, jobsAnswered, ← hj]
    | none =>
      -- the connection is open, so the question is asked
      obtain ⟨frame, hf⟩ := question_frame l.calls.nextId
      have hask : Inv { l with jobStream := .asking task } :=
        hi.move (.jobStream (.asking task) : Move (fun _ => True) l _)
      obtain ⟨m, x, hb⟩ :=
        begin_of_open (.caller task) .plain hask hc hf
      have hsteady := begin_steady { l with jobStream := .asking task } (.caller task)
        Method.subscribe (.array [.string jobCollection]) .plain
      have hbegun := begin_begun { l with jobStream := .asking task } (.caller task)
        Method.subscribe (.array [.string jobCollection]) .plain
      rw [hb] at hsteady hbegun ⊢
      obtain ⟨hid, hkind, hframe⟩ := begin_going (congrArg Prod.snd hb)
      cases hbegun with
      | going _ _ _ _ _ _ hmc =>
        exact .asks hj hid hkind hframe Table.lookup_insert_self hsteady.stream
          (hsteady.written (t := .askJobs x method params token) rfl) hmc

theorem closed_startJob (l : Link) :
    (l.startJob task method params token).calls.closed = l.calls.closed := by
  have hbegun := begin_begun l (.caller task) method params .job
  unfold startJob
  generalize l.begin (.caller task) method params .job = p at hbegun ⊢
  cases hbegun with
  | going _ _ _ _ _ hopen hc => exact hc.trans hopen.symm
  | failed _ hc => exact hc

/-- A question fails if the end of the connection is seen first, if no answer has come, or if its
write fails. -/
theorem resume_failed (a : Actor) (x : Exchange) (w : Wakeup) (why : LinkError) (hi : l.Inv)
    (hr : (l.resume a x .no w).2 = .over (.error why)) :
    (l.isOpen = true → ∀ v, l.slots.lookup x.id ≠ some (.filled (.ok v))) ∨
    ∃ text, why = .transport text ∧
      (l.resume a x .no w).1.calls.closed = (l.teardown (.transport text)).calls.closed := by
  have hawait : ∀ {n : Link} {y : Exchange} {w : Wakeup}, n.slots = l.slots → y.id = x.id →
      (n.await y .no w).2 = .over (.error why) →
        ∀ v, l.slots.lookup x.id ≠ some (.filled (.ok v)) := by
    intro n y w hs hid hr v hv
    rw [await, if_neg (by simp), endOf?, hs, hid, hv] at hr
    cases hr
  unfold resume at hr ⊢
  split at hr
  · refine .inl fun hopen => ?_
    rw [isOpen_iff] at hopen
    unfold enter at hr
    split_ifs at hr with ht hw
    have hstopped := hi.writable (by simpa using hw)
    rw [hi.stopped, hopen] at hstopped
    cases hstopped
  · have hwrite : ∀ text, (l.failWrite a x text).1.calls.closed =
        (l.teardown (.transport text)).calls.closed := fun text => by
      rw [closed_teardown]
      exact closed_teardown (l.leaveLine a) _
    split at hr
    · exact .inl fun _ => hawait (n := l.leaveLine a) (y := { x with stage := .waiting }) rfl rfl hr
    · cases hr
      exact .inr ⟨_, rfl, hwrite _⟩
    · cases hr
      exact .inr ⟨_, rfl, hwrite _⟩
    · cases hr
    · cases hr
  · exact .inl fun _ => hawait rfl rfl hr

namespace Attempted

variable {v : Json}

theorem ofAnswer (hs : l.slots.lookup x.id = some (.filled (.ok v))) (hw : m.sent = l.sent)
    (hc : m.calls.closed = l.calls.closed) :
    Attempted l e task x method params token (jobsAnswered task method params token m (.ok v)) := by
  cases hv : acknowledges v with
  | true =>
    simp only [jobsAnswered, hv, ↓reduceIte]
    have hjob : Leaves task (Task.CallsJob method params token) { m with jobStream := .live }
        (startJob { m with jobStream := .live } task method params token) := .startJob _
    refine .accepted hs hv hjob.stream ?_ hjob.ends ((closed_startJob _).trans hc)
    rw [Written, ← hw]
    exact hjob.written
  | false =>
    simp only [jobsAnswered, hv, Bool.false_eq_true, ↓reduceIte]
    exact .refused hs hv Table.lookup_erase_self Table.lookup_insert_self rfl hw hc

theorem ofResume (hi : l.Inv) (w : Wakeup) : Attempted l e task x method params token
    (proceed task (l.resume (.caller task) x .no w) (.askJobs · method params token)
      (jobsAnswered task method params token)) := by
  have hresumed := resume_resumed l (.caller task) x .no w
  have hsteady := resume_steady l (.caller task) x .no w
  have hfailed := fun why => resume_failed (.caller task) x w why hi
  have hgoing := fun y => resume_going (l := l) (a := .caller task) (x := x) (y := y) (c := .no)
    (w := w)
  generalize l.resume (.caller task) x .no w = p at hresumed hsteady hfailed hgoing ⊢
  cases hresumed with
  | @going m y _ _ _ hs _ hc =>
    exact .going Table.lookup_insert_self (hgoing y rfl) hsteady.stream
      (hsteady.written (t := .askJobs y method params token) rfl) hs hc
  | answered hs _ hc => exact .ofAnswer hs (hsteady.ended _ rfl) hc
  | failed _ hc =>
    have hw := hsteady.ended _ rfl
    rcases hfailed _ rfl with hs | ⟨text, rfl, hc'⟩
    · exact .failed Table.lookup_erase_self Table.lookup_insert_self rfl hw hc hs
    · exact .unwritten Table.lookup_erase_self Table.lookup_insert_self rfl hw hc'
  | unwritten _ hc =>
    exact .unwritten Table.lookup_erase_self Table.lookup_insert_self rfl (hsteady.ended _ rfl) hc

theorem ofDrop : Attempted l (.drop task) task x method params token
    (l.dropTask task (.askJobs x method params token)) :=
  .dropped rfl Table.lookup_erase_self rfl rfl rfl rfl

end Attempted

end Link

end ServerLink
