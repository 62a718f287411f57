import ServerLink.Proofs.Link.Afterwards

/-!
# The errors of a connection

A connection fails what is asked of it with errors of its own (`LinkError.isOfLink`). It never says
that a client is or is not connected, and nothing about settings, files or what is unsupported
(`OwnErrors.event`).
-/

namespace ServerLink

/-- An error that comes of a connection. -/
def LinkError.isOfLink : LinkError → Bool
  | .transport _ | .closed _ | .authentication _ | .protocol _ | .rpc _ | .job _
  | .subscriptionRejected _ | .cancelled | .timeout _ => true
  | .unsupported _ | .notConnected | .alreadyConnected | .config _ | .io _ => false

/-- It fails, if it does, with an error of a connection. -/
def OfLink {α : Type} (o : Except LinkError α) : Prop := ∀ e, o = .error e → e.isOfLink = true

theorem ofLink_ok {α : Type} (v : α) : OfLink (.ok v) := by rintro _ ⟨⟩

theorem ofLink_error {α : Type} {reason : LinkError} (h : reason.isOfLink = true) :
    OfLink (.error reason : Except LinkError α) := by
  rintro _ ⟨⟩
  exact h

theorem OfLink.map {α β : Type} {o : Except LinkError α} (h : OfLink o) (f : α → β) :
    OfLink (o.map f) := by
  cases o with
  | ok v => exact ofLink_ok _
  | error e => exact ofLink_error (h e rfl)

namespace Link

/-- The errors that are kept are a connection's own. -/
structure OwnErrors (l : Link) : Prop where
  closed : ∀ reason, l.calls.closed = some reason → reason.isOfLink = true
  slots : ∀ id o, l.slots.lookup id = some (.filled o) → OfLink o
  results : ∀ task r, l.results.lookup task = some r → OfLink r

/-- What has become of a call, with errors of a connection. -/
structure OwnProgress (p : Link × Exchange.Progress) : Prop where
  link : p.1.OwnErrors
  outcome : ∀ o, p.2 = .over o → OfLink o

variable {l m : Link} {a : Actor} {x : Exchange} {task : Nat} {e : Event} {reason : LinkError}

theorem ofLink_report (r : Job.Report) : OfLink r.outcome := by
  unfold Job.Report.outcome
  split
  · exact ofLink_ok _
  · exact ofLink_error rfl

theorem ofLink_direct (kind : Call.Kind) (r : Response) : OfLink (Calls.direct kind r) := by
  unfold Calls.direct
  split
  · exact ofLink_error rfl
  · exact ofLink_ok _
  · exact ofLink_error rfl

namespace OwnErrors

/-! ## What the actors share -/

theorem ofSettings (settings : Settings) : (Link.ofSettings settings).OwnErrors :=
  ⟨by rintro _ ⟨⟩, by rintro _ _ ⟨⟩, by rintro _ _ ⟨⟩⟩

theorem congr (h : l.OwnErrors) (hc : m.calls.closed = l.calls.closed) (hs : m.slots = l.slots)
    (hr : m.results = l.results) : m.OwnErrors :=
  ⟨by rw [hc]; exact h.closed, by rw [hs]; exact h.slots, by rw [hr]; exact h.results⟩

theorem perform (h : l.OwnErrors) {o : Op}
    (ho : ∀ why, o = .teardown why → why.isOfLink = true) : (l.perform o).OwnErrors := by
  refine ⟨fun reason hc => ?_, fun id out hs => ?_, ?_⟩
  · rw [closed_perform] at hc
    cases o with
    | teardown why =>
      cases hold : l.calls.closed with
      | some first =>
        rw [hold] at hc
        exact h.closed reason (hold.trans hc)
      | none =>
        rw [hold] at hc
        cases hc
        exact ho _ rfl
    | _ => exact h.closed reason hc
  · rw [slots_perform] at hs
    split at hs
    · cases hs
    · rcases Option.or_eq_some_iff.1 hs with hnew | ⟨-, hold⟩
      · have hm := List.mem_of_getLast? hnew
        have hends : ∀ {ev : Calls.Event}, (∀ why, ev = .failAll why → why.isOfLink = true) →
            .filled out ∈ endsOf id (l.calls.step ev).2 → OfLink out := by
          intro ev hev hm
          rcases Calls.mem_step (mem_endsOf.1 hm) with ⟨kind, r, -, hd⟩ | ⟨r, hd⟩ |
            ⟨why, hf, hd⟩ | ⟨hd, -⟩ <;> cases hd
          · exact ofLink_direct kind r
          · exact ofLink_report r
          · exact ofLink_error (hev why hf)
        cases o with
        | answer r => exact hends (by rintro _ ⟨⟩) hm
        | report r => exact hends (by rintro _ ⟨⟩) hm
        | teardown why =>
          refine hends ?_ hm
          rintro _ ⟨⟩
          exact ho why rfl
        | _ => cases hm
      · exact h.slots id out hold
  · rw [perform_frame]
    exact h.results

theorem forget (h : l.OwnErrors) (id : Nat) : (l.forget id).OwnErrors :=
  h.perform (o := .cancel id) (by rintro _ ⟨⟩)

theorem teardown (h : l.OwnErrors) (hr : reason.isOfLink = true) :
    (l.teardown reason).OwnErrors :=
  h.perform (o := .teardown reason) (by rintro _ ⟨⟩; exact hr)

theorem closedError (h : l.OwnErrors) : l.closedError.isOfLink = true := by
  rw [Link.closedError]
  cases hc : l.calls.closed with
  | none => rfl
  | some reason => exact h.closed reason hc

theorem finish (h : l.OwnErrors) (task : Nat) {r : Result} (hr : OfLink r) :
    (l.finish task r).OwnErrors := by
  refine ⟨h.closed, h.slots, fun n s hs => ?_⟩
  have hs : (Table.insert l.results task r).lookup n = some s := hs
  by_cases hn : n = task
  · subst hn
    rw [Table.lookup_insert_self] at hs
    exact Option.some.inj hs ▸ hr
  · rw [Table.lookup_insert_ne hn] at hs
    exact h.results n s hs

theorem eraseResult (h : l.OwnErrors) (task : Nat) :
    ({ l with results := Table.erase l.results task }).OwnErrors := by
  refine ⟨h.closed, h.slots, fun n r hr => ?_⟩
  have hr : (Table.erase l.results task).lookup n = some r := hr
  by_cases hn : n = task
  · rw [hn, Table.lookup_erase_self] at hr
    cases hr
  · rw [Table.lookup_erase_ne hn] at hr
    exact h.results n r hr

/-! ## Calls -/

theorem enter (h : l.OwnErrors) (a : Actor) (x : Exchange) : OwnProgress (l.enter a x) := by
  unfold Link.enter
  split
  · split
    · exact ⟨h.congr rfl rfl rfl, by rintro _ ⟨⟩⟩
    · refine ⟨forget (l := l.leaveLine a) (h.congr rfl rfl rfl) x.id, ?_⟩
      rintro _ ⟨⟩
      exact ofLink_error h.closedError
  · exact ⟨h, by rintro _ ⟨⟩⟩

theorem begin (h : l.OwnErrors) (a : Actor) (method : String) (params : Json) (kind : Call.Kind) :
    OwnProgress (l.begin a method params kind) := by
  unfold Link.begin
  split
  · rename_i why hr
    refine ⟨h, ?_⟩
    rintro _ ⟨⟩
    refine ofLink_error (h.closed why ?_)
    cases hc : l.calls.closed with
    | none => rw [Calls.register_ok hc] at hr; cases hr
    | some first => rw [Calls.register_error hc] at hr; cases hr; rfl
  · rename_i id calls hr
    simp only [register_eq_perform hr]
    have hreg : (l.perform (.register kind)).OwnErrors := h.perform (by rintro _ ⟨⟩)
    split
    · refine ⟨hreg.forget id, ?_⟩
      rintro _ ⟨⟩
      exact ofLink_error rfl
    · exact enter (l := (l.perform (.register kind)).joinLine a) (hreg.congr rfl rfl rfl) a _

theorem await (h : l.OwnErrors) (x : Exchange) (c : Cancellation) (w : Wakeup) :
    OwnProgress (l.await x c w) := by
  have hover : ∀ {o : Outcome}, OfLink o → OwnProgress (l.forget x.id, .over o) := fun ho =>
    ⟨h.forget x.id, by rintro _ ⟨⟩; exact ho⟩
  unfold Link.await
  split
  · exact hover (ofLink_error rfl)
  · split
    · rename_i o ho
      refine hover ?_
      obtain ⟨how, hs, rfl⟩ := Option.map_eq_some_iff.1 ho
      cases how with
      | filled o => exact h.slots x.id o hs
      | abandoned => exact ofLink_error h.closedError
    · split
      · exact hover (ofLink_error rfl)
      · split
        · exact hover (ofLink_error rfl)
        · exact ⟨h, by rintro _ ⟨⟩⟩

theorem failWrite (h : l.OwnErrors) (a : Actor) (x : Exchange) (text : String) :
    OwnProgress (l.failWrite a x text) := by
  have hdown : ((l.leaveLine a).teardown (.transport text)).OwnErrors :=
    teardown (l := l.leaveLine a) (h.congr rfl rfl rfl) rfl
  refine ⟨hdown.forget x.id, ?_⟩
  rintro _ ⟨⟩
  exact ofLink_error rfl

theorem resume (h : l.OwnErrors) (a : Actor) (x : Exchange) (c : Cancellation) (w : Wakeup) :
    OwnProgress (l.resume a x c w) := by
  unfold Link.resume
  split
  · exact h.enter a x
  · split
    · exact await (l := l.leaveLine a) (h.congr rfl rfl rfl) _ c .nothing
    · exact h.failWrite a x _
    · exact h.failWrite a x _
    · exact ⟨h, by rintro _ ⟨⟩⟩
    · exact ⟨h, by rintro _ ⟨⟩⟩
  · exact h.await x c w

theorem abandon (h : l.OwnErrors) (a : Actor) (x : Exchange) : (l.abandon a x).OwnErrors :=
  forget (l := l.leaveLine a) (h.congr rfl rfl rfl) x.id

/-! ## Tasks -/

theorem proceed {p : Link × Exchange.Progress} (hp : OwnProgress p) (going : Exchange → Task)
    {next : Link → Outcome → Link}
    (hnext : ∀ {m o}, OwnErrors m → OfLink o → OwnErrors (next m o)) :
    (Link.proceed task p going next).OwnErrors := by
  obtain ⟨m, r⟩ := p
  rcases r with x | o
  · exact hp.link.congr rfl rfl rfl
  · exact hnext hp.link (hp.outcome o rfl)

theorem finishCall (h : l.OwnErrors) {o : Outcome} (ho : OfLink o) :
    (Link.finishCall task l o).OwnErrors := h.finish task (ho.map _)

theorem startJob (h : l.OwnErrors) (task : Nat) (method : String) (params : Json)
    (token : Option Nat) : (l.startJob task method params token).OwnErrors :=
  proceed (h.begin _ _ _ _) _ fun hm ho => hm.finishCall ho

theorem jobsAnswered (h : l.OwnErrors) {method : String} {params : Json} {token : Option Nat}
    {o : Outcome} (ho : OfLink o) :
    (Link.jobsAnswered task method params token l o).OwnErrors := by
  unfold Link.jobsAnswered
  split
  · exact finish (l := { l with jobStream := .unasked }) (h.congr rfl rfl rfl) task
      (ofLink_error (ho _ rfl))
  · split
    · exact startJob (l := { l with jobStream := .live }) (h.congr rfl rfl rfl) _ _ _ _
    · exact finish (l := { l with jobStream := .unasked }) (h.congr rfl rfl rfl) task
        (ofLink_error rfl)

theorem ensureJobs (h : l.OwnErrors) (task : Nat) (method : String) (params : Json)
    (token : Option Nat) : (l.ensureJobs task method params token).OwnErrors := by
  unfold Link.ensureJobs
  split
  · exact h.startJob task method params token
  · exact h.congr rfl rfl rfl
  · exact proceed (begin (l := { l with jobStream := .asking task }) (h.congr rfl rfl rfl) _ _ _ _)
      _ fun hm ho => hm.jobsAnswered ho

theorem subscribeAnswered (h : l.OwnErrors) {s : Subscription} {o : Outcome} (ho : OfLink o) :
    (Link.subscribeAnswered task s l o).OwnErrors := by
  have hgiven : ({ l with fanout := l.fanout.discard s }).OwnErrors := h.congr rfl rfl rfl
  unfold Link.subscribeAnswered
  split
  · exact hgiven.finish task (ofLink_error (ho _ rfl))
  · split
    · exact h.finish task (ofLink_ok _)
    · exact hgiven.finish task (ofLink_error rfl)

theorem startSubscribe (h : l.OwnErrors) (task : Nat) (collection : String) (filter : Json) :
    (l.startSubscribe task collection filter).OwnErrors := by
  unfold Link.startSubscribe
  split
  · rename_i why hr
    refine h.finish task (ofLink_error ?_)
    cases hc : l.fanout.closed with
    | true => rw [Fanout.register_closed hc] at hr; cases hr; rfl
    | false => rw [Fanout.register_open hc] at hr; cases hr
  · rename_i s fanout _
    exact proceed (begin (l := { l with fanout }) (h.congr rfl rfl rfl) _ _ _ _) _
      fun hm ho => hm.subscribeAnswered ho

theorem ofLink_version {o : Outcome} (ho : OfLink o) :
    OfLink ((o >>= versionOf).map Reply.version) := by
  refine OfLink.map ?_ _
  cases o with
  | error why => exact ofLink_error (ho why rfl)
  | ok v =>
    show OfLink (versionOf v)
    unfold versionOf
    split
    · split
      · exact ofLink_ok _
      · exact ofLink_error rfl
    · exact ofLink_error rfl

theorem ofLink_login {o : Outcome} (ho : OfLink o) : OfLink (loginOutcome o) := by
  unfold loginOutcome
  split
  · exact ofLink_error rfl
  · exact ofLink_error (ho _ rfl)
  · dsimp only
    split
    · exact ofLink_ok _
    · exact ofLink_error rfl

theorem loginAnswered (h : l.OwnErrors) {o : Outcome} (ho : OfLink o) :
    (Link.loginAnswered task l o).OwnErrors := by
  unfold Link.loginAnswered
  split
  · rename_i why hw
    exact h.finish task (ofLink_error (ofLink_login ho why hw))
  · exact proceed (h.begin _ _ _ _) _ fun hm ho => hm.finish task (ofLink_version ho)

theorem startHandshake (h : l.OwnErrors) (task : Nat) (c : Credentials) :
    (l.startHandshake task c).OwnErrors :=
  proceed (h.begin _ _ _ _) _ fun hm ho => hm.loginAnswered ho

/-! ## Giving the write half back -/

theorem release (h : l.OwnErrors) (a : Actor) (r : Release) : (l.release a r).1.OwnErrors := by
  unfold Link.release
  repeat' split
  all_goals exact h.congr rfl rfl rfl

theorem startJoin (h : l.OwnErrors) (task : Nat) : (l.startJoin task).OwnErrors := by
  unfold Link.startJoin
  split
  · exact h.congr rfl rfl rfl
  · exact finish (l := { l with joinable := false }) (h.congr rfl rfl rfl) task (ofLink_ok _)

theorem continueClose {p : Link × Option Release} (h : p.1.OwnErrors) (task : Nat) :
    (Link.continueClose task p).OwnErrors := by
  obtain ⟨m, stage⟩ := p
  cases stage with
  | some stage => exact h.congr rfl rfl rfl
  | none => exact startJoin (l := m) h task

theorem continueReader {p : Link × Option Release} (h : p.1.OwnErrors) :
    (Link.continueReader p).OwnErrors := by
  obtain ⟨m, stage⟩ := p
  cases stage <;> exact h.congr rfl rfl rfl

theorem stopReader (h : l.OwnErrors) : l.stopReader.OwnErrors :=
  continueReader (release (l := l.joinLine .reader) (h.congr rfl rfl rfl) .reader .queued)

theorem continueProbe {p : Link × Option Release} (h : p.1.OwnErrors) :
    (Link.continueProbe p).OwnErrors := by
  obtain ⟨m, stage⟩ := p
  cases stage <;> exact h.congr rfl rfl rfl

theorem startClose (h : l.OwnErrors) (task : Nat) : (l.startClose task).OwnErrors := by
  have hdown : (l.teardown (.closed "client closed")).OwnErrors := h.teardown rfl
  exact continueClose (release (l := (l.teardown (.closed "client closed")).joinLine _)
    (hdown.congr rfl rfl rfl) _ .queued) task

theorem probeFailed (h : l.OwnErrors) (failure : String) : (l.probeFailed failure).OwnErrors := by
  unfold Link.probeFailed
  split
  · exact h.congr rfl rfl rfl
  · have hdown : (l.teardown (.closed ("liveness probe failed: " ++ failure))).OwnErrors :=
      h.teardown rfl
    exact continueProbe (release (l := Link.joinLine _ _) (hdown.congr rfl rfl rfl) _ .queued)

theorem continueProbing {p : Link × Exchange.Progress} (hp : OwnProgress p) :
    (Link.continueProbing p).OwnErrors := by
  obtain ⟨m, r⟩ := p
  rcases r with x | o
  · exact hp.link.congr rfl rfl rfl
  · show (m.probeAnswered o).OwnErrors
    unfold Link.probeAnswered
    split
    · split
      · exact hp.link.congr rfl rfl rfl
      · exact probeFailed (l := m) hp.link _
    · exact probeFailed (l := m) hp.link _

/-! ## Events -/

theorem startTask (h : l.OwnErrors) (task : Nat) (o : Operation) :
    (l.startTask task o).OwnErrors := by
  cases o with
  | call method params token => exact proceed (h.begin _ _ _ _) _ fun hm ho => hm.finishCall ho
  | callAndWait method params token => exact h.ensureJobs task method params token
  | subscribe collection filter => exact h.startSubscribe task collection filter
  | close => exact h.startClose task

theorem resumeTask (h : l.OwnErrors) (task : Nat) (t : Task) (w : Wakeup) (eager : Bool) :
    (l.resumeTask task t w eager).OwnErrors := by
  unfold Link.resumeTask
  cases t with
  | call x token => exact proceed (h.resume _ _ _ _) _ fun hm ho => hm.finishCall ho
  | awaitJobs method params token => exact h.ensureJobs task method params token
  | askJobs x method params token =>
    exact proceed (h.resume _ _ _ _) _ fun hm ho => hm.jobsAnswered ho
  | subscribe s x => exact proceed (h.resume _ _ _ _) _ fun hm ho => hm.subscribeAnswered ho
  | login x => exact proceed (h.resume _ _ _ _) _ fun hm ho => hm.loginAnswered ho
  | readVersion x =>
    exact proceed (h.resume _ _ _ _) _ fun hm ho => hm.finish task (ofLink_version ho)
  | close stage =>
    cases stage with
    | queued => exact continueClose (h.release _ .queued) task
    | closing =>
      cases w with
      | nothing | late => exact h
      | written | writeFailed _ | writeTimedOut => exact h.startJoin task
  | join =>
    dsimp only
    split
    · exact h.finish task (ofLink_ok _)
    · exact h

theorem dropTask (h : l.OwnErrors) (task : Nat) (t : Task) : (l.dropTask task t).OwnErrors := by
  have herase : ({ l with tasks := Table.erase l.tasks task }).OwnErrors := h.congr rfl rfl rfl
  unfold Link.dropTask
  cases t with
  | call x _ | login x | readVersion x => exact herase.abandon _ x
  | askJobs x _ _ _ | subscribe _ x => exact (herase.abandon _ x).congr rfl rfl rfl
  | awaitJobs _ _ _ | join | close _ => exact herase.congr rfl rfl rfl

theorem receive (h : l.OwnErrors) (i : Inbound) : (l.receive i).OwnErrors := by
  have hframe : ∀ text, (l.dispatch text).OwnErrors := fun text => by
    rw [dispatch_eq]
    cases ho : Op.ofText? text with
    | none => exact h
    | some o =>
      refine h.perform ?_
      rintro _ rfl
      cases Op.isInbound_of_text ho
  have hend : ∀ why, why.isOfLink = true → (l.teardown why).stopReader.OwnErrors := fun _ hw =>
    (h.teardown hw).stopReader
  cases i with
  | text frame => exact hframe frame
  | binary bytes =>
    dsimp only [Link.receive]
    split
    · exact hframe _
    · exact h
  | control => exact h
  | goodbye reason => exact hend _ rfl
  | failed reason => exact hend _ rfl
  | ended => exact hend _ rfl

/-- **What a connection says is its own**, unless it is ended from outside for another reason. -/
theorem event (h : l.OwnErrors) (he : ∀ why, e = .teardown why → why.isOfLink = true) :
    (l.step e).OwnErrors := by
  cases e with
  | start task o =>
    dsimp only [step]
    split
    · exact h
    · exact h.startTask task o
  | handshake task c =>
    dsimp only [step]
    split
    · exact h
    · exact h.startHandshake task c
  | resume task w eager =>
    dsimp only [step]
    split
    · exact h.resumeTask task _ w eager
    · exact h
  | drop task =>
    dsimp only [step]
    split
    · exact h.dropTask task _
    · exact h
  | receive i =>
    dsimp only [step]
    split
    · exact h.receive i
    · exact h
  | stopReading =>
    dsimp only [step]
    split
    · exact h.stopReader
    · exact h
  | resumeReader w =>
    dsimp only [step]
    split
    · exact h
    · exact h
    · exact continueReader (h.release _ .queued)
    · cases w <;> exact h.congr rfl rfl rfl
  | tick =>
    dsimp only [step]
    split
    · exact continueProbing (h.begin _ _ _ _)
    · exact h
  | resumeProbe w eager =>
    dsimp only [step]
    split
    · exact h
    · exact h
    · split <;> exact h.congr rfl rfl rfl
    · exact continueProbing (h.resume _ _ _ w)
    · exact continueProbe (h.release _ .queued)
    · cases w <;> exact h.congr rfl rfl rfl
  | startProbe =>
    dsimp only [step]
    split <;> exact h.congr rfl rfl rfl
  | probeLate =>
    dsimp only [step]
    split
    · exact (h.abandon _ _).probeFailed _
    · exact h
  | fire _ | subscriber _ _ => exact h.congr rfl rfl rfl
  | teardown why => exact h.teardown (he why rfl)

end OwnErrors

end Link

end ServerLink
