import ServerLink.Proofs.Client.Handshake
import ServerLink.Proofs.Link.InTurn

/-!
# A client with one caller

One caller uses a client, and waits for what each use comes to before the next (`Round`). If the
server lets the client in and does not leave (`Round.Fair`), each use fails for being misplaced
exactly as the uses before it say (`AtRest.answer`).
-/

namespace ServerLink

/-- What a caller does with a transport. -/
inductive Use where
  | connect (credentials : Except SettingsError Credentials)
  | ask (operation : Operation)

/-- How an operation fails that is misplaced. -/
inductive Misuse where
  | notConnected
  | alreadyConnected
  | closed
deriving DecidableEq

def Misuse.of? : Result → Option Misuse
  | .error .notConnected => some .notConnected
  | .error .alreadyConnected => some .alreadyConnected
  | .error (.closed _) => some .closed
  | _ => none

namespace Use

def isConnect : Use → Bool
  | connect _ => true
  | ask _ => false

def isClose : Use → Bool
  | ask .close => true
  | _ => false

/-- The use by itself, under this number. -/
def event (task : Nat) : Use → Client.Event
  | connect credentials => .connect task credentials
  | ask o => .start task o

/-- A connect is among these uses. -/
def connects (uses : List Use) : Bool := uses.any isConnect

/-- A close is among these uses, after a connect. -/
def closes (uses : List Use) : Bool := (uses.dropWhile (!·.isConnect)).any isClose

/-- How a use fails after these, if it is misplaced. -/
def misuse? (uses : List Use) (u : Use) : Option Misuse :=
  if u.isClose then none
  else if u.isConnect then if connects uses then some .alreadyConnected else none
  else if !connects uses then some .notConnected
  else if closes uses then some .closed
  else none

end Use

/-- A use of a transport, and what happens until it is over. -/
structure Round where
  task : Nat
  use : Use
  meanwhile : List Client.Event

namespace Round

def events (r : Round) : List Client.Event := r.use.event r.task :: r.meanwhile

end Round

namespace Client

/-- The event is no caller's, except that a task goes on. -/
def Event.goesOn : Event → Bool
  | .link (.drop _) | .connect _ _ | .dropAttempt | .start _ _ | .dropClient => false
  | .opened _ | .handshakeLate | .link _ => true

/-- What a use comes to, at once or in the end. -/
def answer? (c : Client) (r : Round) : Option Result :=
  ((c.step (r.use.event r.task)).result? r.task).or ((c.run r.events).result? r.task)

end Client

/-- The use is over, and nobody else uses the client. If the client tries to connect it is let in;
and its connection ends by a close alone. -/
structure Round.Fair (r : Round) (c : Client) : Prop where
  fresh : c.IsFresh r.task
  goesOn : ∀ e ∈ r.meanwhile, e.goesOn = true
  ended : (c.answer? r).isSome = true
  admitted : r.use.isConnect = true → c.connecting = false → c.answer? r = some (.ok .done)
  lasting : r.use.isClose = false → c.closeReason = none → (c.run r.events).closeReason = none

namespace Client

/-- The client between two uses, after these. -/
structure AtRest (c : Client) (uses : List Use) : Prop where
  reachable : c.Reachable
  attempt : c.attempt = none
  connecting : c.connecting = Use.connects uses
  link : c.link.isSome = Use.connects uses
  inTurn : ∀ l, c.link = some l → ∀ task, l.InTurn task
  closed : c.closeReason = if Use.closes uses then some (.closed "client closed") else none

/-- How far a client has got that tries to connect. -/
inductive Connects (c : Client) (task : Nat) : Prop
  | going {stage : Attempt.Stage} (ha : c.attempt = some ⟨task, stage⟩) (hl : c.link = none)
      (hr : c.results.lookup task = none) (hg : ∀ l, stage = .greeting l → l.InTurn task)
  | failed {why : LinkError} (ha : c.attempt = none) (hl : c.link = none)
      (hr : c.results.lookup task = some (.error why))
  | connected {l : Link} (ha : c.attempt = none) (hl : c.link = some l) (hc : c.connecting = true)
      (hr : c.results.lookup task = some (.ok .done)) (hg : ∀ n, l.InTurn n)

variable {c d : Client} {l m : Link} {task : Nat} {uses : List Use} {e : Event}
  {events : List Event} {r : Round} {u : Use} {o : Operation} {a : Result}

/-! ## What uses say -/

theorem connects_concat (uses : List Use) (u : Use) :
    Use.connects (uses ++ [u]) = (Use.connects uses || u.isConnect) := by
  simp [Use.connects]

theorem closes_concat (uses : List Use) (u : Use) : Use.closes (uses ++ [u]) =
    (Use.closes uses || Use.connects uses && u.isClose) := by
  induction uses with
  | nil => cases u <;> rfl
  | cons v uses ih =>
    cases v with
    | connect credentials => simp [Use.closes, Use.connects, Use.isConnect, Bool.or_assoc]
    | ask o => exact ih

theorem connects_of_closes (h : Use.closes uses = true) : Use.connects uses = true := by
  induction uses with
  | nil => cases h
  | cons v uses ih =>
    cases v with
    | connect credentials => rfl
    | ask o => exact ih h

/-! ## Nothing but a connection goes on -/

theorem starts?_of_isOfLink {d : Link.Event} (h : isOfLink d = true) : d.starts? = none := by
  cases d <;> first | rfl | cases h

theorem starts?_of_onLink? {e' : Link.Event} (he : e.goesOn = true) (h : e.onLink? = some e') :
    e'.starts? = none := by
  cases e with
  | link d =>
    simp only [Event.onLink?] at h
    split at h
    · rename_i hof
      cases h
      exact starts?_of_isOfLink hof
    · cases h
  | opened _ | handshakeLate => cases h
  | connect _ _ | dropAttempt | start _ _ | dropClient => cases he

theorem step_idle (ha : c.attempt = none) (he : e.goesOn = true) :
    c.step e = { c with link := c.link.map (·.run e.onLink?.toList) } := by
  obtain ⟨settings, connecting, attempt, link, version, results⟩ := c
  cases ha
  cases e with
  | link e =>
    simp only [Client.step, Event.onLink?]
    split <;> cases link <;> rfl
  | opened _ | handshakeLate => cases link <;> rfl
  | connect _ _ | dropAttempt | start _ _ | dropClient => cases he

theorem run_idle (ha : c.attempt = none) (he : ∀ e ∈ events, e.goesOn = true) :
    c.run events = { c with link := c.link.map (·.run (events.filterMap Event.onLink?)) } := by
  induction events generalizing c with
  | nil =>
    obtain ⟨settings, connecting, attempt, link, version, results⟩ := c
    cases link <;> rfl
  | cons e events ih =>
    have hstep := step_idle ha (he e (by simp))
    have hrest : ∀ e' ∈ events, e'.goesOn = true := fun e' hm => he e' (List.mem_cons_of_mem _ hm)
    show (c.step e).run events = _
    rw [ih (by rw [hstep]; exact ha) hrest, hstep]
    simp only [Option.map_map]
    congr 2
    funext l
    simp only [Function.comp_apply, ← Link.run_append]
    cases honlink : e.onLink? <;> simp [honlink]

theorem starts?_of_goesOn (he : ∀ e ∈ events, e.goesOn = true) :
    ∀ e' ∈ events.filterMap Event.onLink?, e'.starts? = none := by
  intro e' hm
  obtain ⟨e, hmem, honlink⟩ := List.mem_filterMap.1 hm
  exact starts?_of_onLink? (he e hmem) honlink

/-! ## A client that does not try to connect -/

namespace AtRest

theorem ofSettings (settings : Settings) : (Client.ofSettings settings).AtRest [] :=
  ⟨⟨settings, [], rfl⟩, rfl, rfl, rfl, by rintro _ ⟨⟩, rfl⟩

/-- What goes on by itself changes no results, and nothing else if the connection does not end. -/
theorem run (h : c.AtRest uses) (he : ∀ e ∈ events, e.goesOn = true)
    (hlast : c.closeReason = none → (c.run events).closeReason = none) :
    (c.run events).AtRest uses ∧ (c.run events).results = c.results := by
  have hrun := run_idle h.attempt he
  refine ⟨⟨h.reachable.run events, by rw [hrun]; exact h.attempt, by rw [hrun]; exact h.connecting,
    by rw [hrun]; simpa using h.link, fun l hl task => ?_, ?_⟩, by rw [hrun]⟩
  · rw [hrun] at hl
    obtain ⟨l₀, hl₀, rfl⟩ := Option.map_eq_some_iff.1 hl
    exact (h.inTurn l₀ hl₀ task).run (starts?_of_goesOn he)
  · rw [← h.closed]
    cases hc : c.closeReason with
    | none => exact hlast hc
    | some reason => exact closeReason_run h.reachable.inv hc events

/-- A use that is over at once. -/
theorem finish (h : c.AtRest uses) (a : Result) {event : Event}
    (hstep : c.step event = c.finish task a) (hlink : Use.connects (uses ++ [u]) = Use.connects uses)
    (hcloses : Use.closes (uses ++ [u]) = Use.closes uses) :
    (c.step event).AtRest (uses ++ [u]) := by
  refine ⟨h.reachable.step event, ?_, ?_, ?_, ?_, ?_⟩
  · rw [hstep]
    exact h.attempt
  · rw [hstep, hlink]
    exact h.connecting
  · rw [hstep, hlink]
    exact h.link
  · rw [hstep]
    exact h.inTurn
  · rw [hstep, hcloses]
    exact h.closed

/-- What comes of a use that is over at once. -/
theorem atOnce (h : c.AtRest uses) (hf : r.Fair c)
    (hstep : c.step (r.use.event r.task) = c.finish r.task a)
    (hlink : Use.connects (uses ++ [r.use]) = Use.connects uses)
    (hcloses : Use.closes (uses ++ [r.use]) = Use.closes uses)
    (hlast : c.closeReason = none → (c.run r.events).closeReason = none) :
    (c.run r.events).AtRest (uses ++ [r.use]) ∧ c.answer? r = some a := by
  have hrest := h.finish a hstep hlink hcloses
  have hnow : (c.step (r.use.event r.task)).results.lookup r.task = some a := by
    rw [hstep]
    exact Table.lookup_insert_self
  obtain ⟨hafter, hresults⟩ := hrest.run hf.goesOn fun hc => hlast (by rw [hstep] at hc; exact hc)
  refine ⟨hafter, ?_⟩
  rw [answer?, Client.result?, hnow]
  rfl

end AtRest

/-! ## Asking a client that has connected -/

theorem misuse?_of_isOfLink (h : ∀ why, a = .error why → why.isOfLink = true)
    (hopen : ∀ text, a ≠ .error (.closed text)) : Misuse.of? a = none := by
  unfold Misuse.of?
  split
  · exact absurd (h _ rfl) (by decide)
  · exact absurd (h _ rfl) (by decide)
  · exact absurd rfl (hopen _)
  · rfl

theorem drop_not_mem (he : ∀ e ∈ events, e.goesOn = true) (n : Nat) :
    .drop n ∉ events.filterMap Event.onLink? := by
  intro hm
  obtain ⟨e, hmem, honlink⟩ := List.mem_filterMap.1 hm
  have hgoes := he e hmem
  cases e with
  | link d =>
    simp only [Event.onLink?] at honlink
    split at honlink <;> cases honlink
    cases hgoes
  | opened _ | handshakeLate => cases honlink
  | connect _ _ | dropAttempt | start _ _ | dropClient => cases hgoes

/-- What a fair round leads to that asks a connected client for something. -/
structure Asked (c : Client) (r : Round) (l m : Link) : Prop where
  run : c.run r.events = { c with link := some m }
  inTurn : ∀ n, m.InTurn n
  answer : ∃ a, c.answer? r = some a ∧ m.results.lookup r.task = some a

theorem AtRest.ask (h : c.AtRest uses) (hf : r.Fair c) (hl : c.link = some l)
    (hu : r.use = .ask o) : c.Asked r l
      ((l.startTask r.task o).run (r.meanwhile.filterMap Event.onLink?)) := by
  obtain ⟨hcr, ht, hr⟩ := hf.fresh.unused hl
  have hes := starts?_of_goesOn hf.goesOn
  have hstarted := (h.inTurn l hl r.task).startTask ht hr o
  have hstep : c.step (r.use.event r.task) = { c with link := some (l.startTask r.task o) } := by
    rw [hu]
    exact step_start hf.fresh hl o
  have hrun : c.run r.events = { c with link := some ((l.startTask r.task o).run
      (r.meanwhile.filterMap Event.onLink?)) } := by
    show (c.step (r.use.event r.task)).run r.meanwhile = _
    rw [run_idle (by rw [hstep]; exact h.attempt) hf.goesOn, hstep]
    rfl
  have hanswer : c.answer? r = ((l.startTask r.task o).run
      (r.meanwhile.filterMap Event.onLink?)).results.lookup r.task := by
    have hresult : ∀ m : Link, ({ c with link := some m }).result? r.task =
        m.results.lookup r.task := fun m => result?_eq (c := { c with link := some m }) hcr rfl
    rw [answer?, hstep, hrun, hresult, hresult]
    cases hfirst : (l.startTask r.task o).results.lookup r.task with
    | none => rfl
    | some a =>
      rw [hstarted.result_kept hfirst hes]
      rfl
  obtain ⟨a, ha⟩ := Option.isSome_iff_exists.1 hf.ended
  have hout := hanswer.symm.trans ha
  have hlast := hstarted.run hes
  exact ⟨hrun, hlast.next (hlast.once.resolve_right (by rw [hout]; simp)), a, ha, hout⟩

/-- Why the connection has ended after a fair round, if it has. -/
theorem AtRest.closeReason (h : c.AtRest uses) (hf : r.Fair c) (hl : c.link = some l)
    (hu : r.use = .ask o) : (c.run r.events).closeReason =
      if Use.closes (uses ++ [r.use]) then some (.closed "client closed") else none := by
  obtain ⟨-, ht, hr⟩ := hf.fresh.unused hl
  have hconnects : Use.connects uses = true := h.link.symm.trans (by rw [hl]; rfl)
  rw [closes_concat, hconnects, Bool.true_and]
  cases hclose : r.use.isClose with
  | true =>
    obtain rfl : o = .close := by
      rw [hu] at hclose
      cases o <;> first | rfl | cases hclose
    have hclosed : (l.startTask r.task .close).calls.closed = some (.closed "client closed") := by
      have hreason := (closeReason_eq hl).symm.trans h.closed
      refine (Link.closed_startClose l r.task).trans ?_
      rw [hreason]
      split <;> rfl
    have hstarted := (h.inTurn l hl r.task).startTask ht hr .close
    rw [closeReason_eq (by rw [(h.ask hf hl hu).run]), Bool.or_true]
    exact Link.closed_run hstarted.inv hclosed _
  | false =>
    rw [Bool.or_false, ← h.closed]
    cases hc : c.closeReason with
    | none => exact hf.lasting hclose hc
    | some reason => exact closeReason_run h.reachable.inv hc _

/-- How a connected client fails what it is asked for. -/
theorem AtRest.misuse_asked (h : c.AtRest uses) (hf : r.Fair c) (hl : c.link = some l)
    (hu : r.use = .ask o) (ha : c.answer? r = some a) :
    Misuse.of? a = Use.misuse? uses r.use := by
  obtain ⟨-, ht, hr⟩ := hf.fresh.unused hl
  have hes := starts?_of_goesOn hf.goesOn
  have hconnects : Use.connects uses = true := h.link.symm.trans (by rw [hl]; rfl)
  obtain ⟨hrun, hturn, a', ha', hout⟩ := h.ask hf hl hu
  obtain rfl : a = a' := Option.some.inj (ha.symm.trans ha')
  have hend := h.closeReason hf hl hu
  rw [closeReason_eq (by rw [hrun])] at hend
  by_cases ho : o = .close
  · subst ho
    rw [Link.close_gives_done (h.inTurn l hl r.task) ht hr hes hout, hu]
    rfl
  · have hclose : r.use.isClose = false := by
      rw [hu]
      cases o <;> first | rfl | exact absurd rfl ho
    have hmisuse : Use.misuse? uses r.use = if Use.closes uses then some .closed else none := by
      rw [hu] at hclose ⊢
      simp [Use.misuse?, hclose, hconnects, Use.isConnect]
    rw [hmisuse]
    cases hcloses : Use.closes uses with
    | true =>
      have hclosed : l.calls.closed = some (.closed "client closed") := by
        refine (closeReason_eq hl).symm.trans (h.closed.trans ?_)
        rw [hcloses]
        rfl
      obtain ⟨why, rfl⟩ := Link.closed_connection_refuses (h.inTurn l hl r.task) ht hr hes hclosed
        (drop_not_mem hf.goesOn r.task) ho hout
      rfl
    | false =>
      rw [closes_concat, hcloses, hclose, Bool.and_false] at hend
      have hown := (h.reachable.run r.events).ownErrors.link _ (by rw [hrun])
      refine misuse?_of_isOfLink (hown.results _ _ hout) fun text ht => ?_
      exact (hturn r.task).told hend _ text (ht ▸ hout)

/-- A client that has connected is asked for something. -/
theorem AtRest.asked (h : c.AtRest uses) (hf : r.Fair c) (hl : c.link = some l)
    (hu : r.use = .ask o) : (c.run r.events).AtRest (uses ++ [r.use]) ∧
      ∃ a, c.answer? r = some a ∧ Misuse.of? a = Use.misuse? uses r.use := by
  have hconnects : Use.connects uses = true := h.link.symm.trans (by rw [hl]; rfl)
  obtain ⟨hrun, hturn, a, ha, -⟩ := h.ask hf hl hu
  refine ⟨⟨h.reachable.run r.events, ?_, ?_, ?_, ?_, h.closeReason hf hl hu⟩, a, ha,
    h.misuse_asked hf hl hu ha⟩
  · rw [hrun]
    exact h.attempt
  · rw [hrun, connects_concat, hconnects]
    exact h.connecting.trans hconnects
  · rw [hrun, connects_concat, hconnects]
    rfl
  · intro m hm
    rw [hrun] at hm
    cases hm
    exact hturn

/-! ## Connecting -/

namespace Connects

theorem continueClosing {why : LinkError} (hl : c.link = none) (hr : c.results.lookup task = none)
    (m : Link) : (c.continueClosing task m why).Connects task := by
  unfold Client.continueClosing
  split
  · exact .failed rfl hl Table.lookup_insert_self
  · exact .going rfl hl hr (by rintro _ ⟨⟩)

theorem continueGreeting (hc : c.connecting = true) (hl : c.link = none)
    (hr : c.results.lookup task = none) (hm : m.InTurn task) :
    (c.continueGreeting task m).Connects task := by
  unfold Client.continueGreeting
  split
  · exact .going rfl hl hr (by rintro _ ⟨⟩; exact hm)
  · exact continueClosing hl hr _
  · rename_i v hout
    have ht : m.tasks.lookup task = none := hm.once.resolve_right (by rw [hout]; simp)
    exact .connected rfl rfl hc Table.lookup_insert_self fun n =>
      ((hm.next ht n).eraseResult task).event (by rintro _ ⟨⟩)
  · exact .going rfl hl hr (by rintro _ ⟨⟩; exact hm)

theorem step (h : c.Connects task) (hi : c.Inv) (he : e.goesOn = true) :
    (c.step e).Connects task := by
  cases h with
  | @going stage ha hl hr hg =>
    have hc : c.connecting = true := (hi.attempting (by rw [ha]; rfl)).1
    have hsame : c.step e = c → (c.step e).Connects task := by
      intro hstep
      rw [hstep]
      exact .going ha hl hr hg
    cases e with
    | opened opening =>
      cases stage with
      | opening credentials =>
        simp only [Client.step, ha]
        cases opening with
        | opened =>
          refine continueGreeting hc hl hr ?_
          show ((Link.ofSettings c.settings).step (.handshake task credentials)).InTurn task
          exact (Link.InTurn.ofSettings _ task).event fun n hn => (Option.some.inj hn).symm
        | failed _ | timedOut => exact .failed rfl hl Table.lookup_insert_self
      | greeting _ | closing _ _ => exact hsame (by simp only [Client.step, ha])
    | handshakeLate =>
      cases stage with
      | greeting l =>
        simp only [Client.step, ha]
        exact continueClosing hl hr _
      | opening _ | closing _ _ => exact hsame (by simp only [Client.step, ha])
    | link d =>
      by_cases hof : isOfLink d = true
      · cases stage with
        | opening _ => exact hsame (by simp only [Client.step, ha, hl, hof, ↓reduceIte])
        | greeting l =>
          simp only [Client.step, ha, hof, ↓reduceIte]
          refine continueGreeting hc hl hr ((hg l rfl).event fun n hn => ?_)
          rw [starts?_of_isOfLink hof] at hn
          cases hn
        | closing l why =>
          simp only [Client.step, ha, hof, ↓reduceIte]
          exact continueClosing hl hr _
      · exact hsame (if_neg hof)
    | connect _ _ | dropAttempt | start _ _ | dropClient => cases he
  | failed ha hl hr =>
    rw [step_idle ha he, hl]
    exact .failed ha rfl hr
  | connected ha hl hc hr hg =>
    rw [step_idle ha he, hl]
    refine .connected ha rfl hc hr fun n => (hg n).run ?_
    intro d hd
    exact starts?_of_onLink? he (by simpa using hd)

theorem run (h : c.Connects task) (hi : c.Inv) (he : ∀ e ∈ events, e.goesOn = true) :
    (c.run events).Connects task := by
  induction events generalizing c with
  | nil => exact h
  | cons e events ih =>
    exact ih (h.step hi (he e (by simp))) (hi.step e) fun e' hm => he e' (List.mem_cons_of_mem _ hm)

end Connects

/-- What can be seen of an attempt. -/
theorem Connects.result (h : c.Connects task) :
    (c.result? task = none ∧ c.link = none) ∨ (∃ why, c.result? task = some (.error why)) ∨
      c.result? task = some (.ok .done) := by
  cases h with
  | going ha hl hr => exact .inl ⟨by simp [Client.result?, hr, hl], hl⟩
  | @failed why ha hl hr => exact .inr (.inl ⟨why, by simp only [Client.result?, hr]⟩)
  | connected ha hl hc hr => exact .inr (.inr (by simp only [Client.result?, hr]))

/-- A connect is admitted, or fails at once. -/
theorem AtRest.connects (h : c.AtRest uses) (hno : Use.connects uses = false)
    (hr : c.results.lookup task = none) (credentials : Except SettingsError Credentials) :
    (c.step (.connect task credentials)).Connects task ∧
      (c.step (.connect task credentials)).result? task ≠ some (.ok .done) := by
  have hl : c.link = none := Option.not_isSome_iff_eq_none.1 (by rw [h.link, hno]; simp)
  have hc : c.connecting = false := h.connecting.trans hno
  have hfailed : ∀ why, (c.finish task (.error why)).Connects task ∧
      (c.finish task (.error why)).result? task ≠ some (.ok .done) := by
    intro why
    have hout : (c.finish task (.error why)).results.lookup task = some (.error why) :=
      Table.lookup_insert_self
    exact ⟨.failed h.attempt hl hout, by simp [Client.result?, hout]⟩
  simp only [Client.step, Client.connect, hc, Bool.false_eq_true, ↓reduceIte]
  repeat' split
  · exact hfailed _
  · exact hfailed _
  · exact ⟨.going rfl hl hr (by rintro _ ⟨⟩), by simp [Client.result?, hr, hl]⟩

theorem results_of_fresh (hf : c.IsFresh task) : c.results.lookup task = none := by
  obtain ⟨hr, -⟩ := hf
  cases hc : c.results.lookup task with
  | none => rfl
  | some a => simp [Client.result?, hc] at hr

/-- A client connects for the first time. -/
theorem AtRest.connected (h : c.AtRest uses) (hf : r.Fair c) (hno : Use.connects uses = false)
    {credentials : Except SettingsError Credentials} (hu : r.use = .connect credentials) :
    (c.run r.events).AtRest (uses ++ [r.use]) ∧
      ∃ a, c.answer? r = some a ∧ Misuse.of? a = Use.misuse? uses r.use := by
  have hout := hf.admitted (by rw [hu]; rfl) (h.connecting.trans hno)
  have hl : c.link = none := Option.not_isSome_iff_eq_none.1 (by rw [h.link, hno]; simp)
  obtain ⟨hstarted, hnot⟩ : (c.step (r.use.event r.task)).Connects r.task ∧
      (c.step (r.use.event r.task)).result? r.task ≠ some (.ok .done) := by
    rw [hu]
    exact h.connects hno (results_of_fresh hf.fresh) credentials
  have hlast : (c.run r.events).Connects r.task :=
    hstarted.run (h.reachable.inv.step _) hf.goesOn
  -- it has not succeeded at once, so it has in the end
  have hdone : (c.run r.events).result? r.task = some (.ok .done) := by
    rw [answer?] at hout
    cases hfirst : (c.step (r.use.event r.task)).result? r.task with
    | none =>
      rw [hfirst] at hout
      exact hout
    | some a =>
      rw [hfirst] at hout
      exact absurd (hfirst.trans hout) hnot
  have hcloses : Use.closes uses = false := by
    cases hcl : Use.closes uses with
    | false => rfl
    | true => exact (connects_of_closes hcl).symm.trans hno
  refine ⟨?_, _, hout, by rw [hu]; simp [Misuse.of?, Use.misuse?, Use.isClose, Use.isConnect, hno]⟩
  cases hlast with
  | going ha hl hr =>
    simp [Client.result?, hr, hl] at hdone
  | failed ha hl hr =>
    simp [Client.result?, hr] at hdone
  | connected ha hl' hc hr hg =>
    refine ⟨h.reachable.run _, ha, ?_, ?_, ?_, ?_⟩
    · rw [hc, connects_concat, hu]
      simp [Use.isConnect]
    · rw [hl', connects_concat, hu]
      simp [Use.isConnect]
    · intro m hm
      rw [hl'] at hm
      cases hm
      exact hg
    · rw [closes_concat, hcloses, hno]
      exact hf.lasting (by rw [hu]; rfl) (by simp [Client.closeReason, hl])

/-! ## Rounds -/

/-- **A fair round** leaves a client at rest, and its use fails for being misplaced as the uses
before it say. -/
theorem AtRest.round (h : c.AtRest uses) (hf : r.Fair c) :
    (c.run r.events).AtRest (uses ++ [r.use]) ∧
      ∃ a, c.answer? r = some a ∧ Misuse.of? a = Use.misuse? uses r.use := by
  cases hconnects : Use.connects uses with
  | true =>
    obtain ⟨l, hl⟩ := Option.isSome_iff_exists.1 (h.link.trans hconnects)
    cases hu : r.use with
    | connect credentials =>
      have hc : c.connecting = true := h.connecting.trans hconnects
      have hstep : c.step (r.use.event r.task) = c.finish r.task (.error .alreadyConnected) := by
        rw [hu]
        simp only [Use.event, Client.step, Client.connect, hc, ↓reduceIte]
      obtain ⟨hrest, ha⟩ := h.atOnce hf hstep (by simp [connects_concat, hconnects])
        (by simp [closes_concat, hu, Use.isClose]) (hf.lasting (by rw [hu]; rfl))
      rw [hu] at hrest
      exact ⟨hrest, _, ha, by simp [Misuse.of?, Use.misuse?, Use.isClose, Use.isConnect, hconnects]⟩
    | ask o =>
      rw [← hu]
      exact h.asked hf hl hu
  | false =>
    cases hu : r.use with
    | connect credentials =>
      rw [← hu]
      exact h.connected hf hconnects hu
    | ask o =>
      have hl : c.link = none := Option.not_isSome_iff_eq_none.1 (by rw [h.link, hconnects]; simp)
      have hstep : c.step (r.use.event r.task) = c.finish r.task
          (if o = .close then .ok .done else .error .notConnected) := by
        rw [hu]
        simp only [Use.event, Client.step, Client.start, hl]
      have hnone : (c.run r.events).closeReason = none := by
        show ((c.step (r.use.event r.task)).run r.meanwhile).closeReason = none
        rw [run_idle (by rw [hstep]; exact h.attempt) hf.goesOn, hstep]
        simp [Client.closeReason, Client.finish, hl]
      obtain ⟨hrest, ha⟩ := h.atOnce hf hstep (by simp [connects_concat, hu, Use.isConnect])
        (by simp [closes_concat, hconnects]) fun _ => hnone
      rw [hu] at hrest
      refine ⟨hrest, _, ha, ?_⟩
      cases o with
      | close => rfl
      | _ => simp [Misuse.of?, Use.misuse?, Use.isClose, Use.isConnect, hconnects]

end Client

end ServerLink
