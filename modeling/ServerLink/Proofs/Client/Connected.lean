import ServerLink.Client
import ServerLink.Proofs.Link.Afterwards

/-!
# The connection of a client

At any time a client has one connection at most, that of an attempt or its own, and it is sound
(`Client.Inv`). Once it is connected it keeps its connection, and what happens to the client is an
event of the connection or does not concern it (`run_connected`).
-/

namespace ServerLink

namespace Link

theorem Inv.withResults {l : Link} (h : l.Inv) (results : Table Nat Result) :
    ({ l with results }).Inv :=
  ⟨h.calls, h.fanout, h.stopped, h.shut, h.writable, h.reader, h.probe, h.closing, h.unclosed⟩

theorem Tidy.withResults {l : Link} (h : l.Tidy) (results : Table Nat Result) :
    ({ l with results }).Tidy := by
  have hhand : ({ l with results }).hand = l.hand := by
    funext a
    cases a <;> rfl
  rw [Tidy, hhand]
  exact Kept.congr h rfl rfl rfl rfl rfl

end Link

namespace Client

/-- A state that a client can get into. -/
def Reachable (c : Client) : Prop := ∃ settings events, c = (ofSettings settings).run events

/-- Why the connection of a client ends: one of those who share it ends it, or the client is given
up. -/
inductive Cause (reason : LinkError) : Prop
  | actor (a : Actor) (h : Link.Cause a reason)
  | dropped (h : reason = .closed "client dropped")

/-- A connection as a client has it. -/
structure Sound (l : Link) : Prop where
  inv : l.Inv
  tidy : l.Tidy
  cause : ∀ reason, l.calls.closed = some reason → Cause reason

/-- What holds of a client at any time. -/
structure Inv (c : Client) : Prop where
  attempting : c.attempt.isSome = true → c.connecting = true ∧ c.link = none
  connected : c.link.isSome = true → c.connecting = true
  greeting : ∀ task l, c.attempt = some ⟨task, .greeting l⟩ → Sound l
  sound : ∀ l, c.link = some l → Sound l

/-- What an event of a client is for the connection that it has. -/
def Event.onLink? : Event → Option Link.Event
  | .start task o => some (.start task o)
  | .link e => if isOfLink e then some e else none
  | .dropClient => some (.teardown (.closed "client dropped"))
  | .connect _ _ | .opened _ | .handshakeLate | .dropAttempt => none

variable {c : Client} {l : Link} {task : Nat}

/-! ## Connections -/

theorem Sound.ofSettings (settings : Settings) : Sound (Link.ofSettings settings) :=
  ⟨.ofSettings settings, .ofSettings settings, fun _ h => by cases h⟩

theorem Sound.event (h : Sound l) {e : Link.Event}
    (he : ∀ reason, e = .teardown reason → reason = .closed "client dropped") :
    Sound (l.step e) := by
  refine ⟨h.inv.event e, h.tidy.event e, fun reason hr => ?_⟩
  rcases Link.cause_event hr with hc | ⟨a, ha⟩ | ht
  · exact h.cause reason hc
  · exact .actor a ha
  · exact .dropped (he reason ht)

theorem Sound.withResults (h : Sound l) (results : Table Nat Result) : Sound { l with results } :=
  ⟨h.inv.withResults results, h.tidy.withResults results, h.cause⟩

theorem Sound.ofLink (h : Sound l) {e : Link.Event} (he : isOfLink e = true) : Sound (l.step e) :=
  h.event fun _ ht => by subst ht; cases he

/-! ## Attempts -/

theorem Inv.unconnected (ha : c.attempt = none) (hl : c.link = none) : c.Inv where
  attempting := by simp [ha]
  connected := by simp [hl]
  greeting := by simp [ha]
  sound := by simp [hl]

theorem Inv.attempt {stage : Attempt.Stage} (hc : c.connecting = true)
    (ha : c.attempt = some ⟨task, stage⟩) (hl : c.link = none)
    (hs : ∀ l, stage = .greeting l → Sound l) : c.Inv where
  attempting := fun _ => ⟨hc, hl⟩
  connected := fun _ => hc
  greeting := fun n l h => by
    rw [ha] at h
    cases h
    exact hs l rfl
  sound := by simp [hl]

theorem Inv.link (hc : c.connecting = true) (ha : c.attempt = none) (hl : c.link = some l)
    (hs : Sound l) : c.Inv where
  attempting := by simp [ha]
  connected := fun _ => hc
  greeting := by simp [ha]
  sound := fun m hm => by
    rw [hl] at hm
    cases hm
    exact hs

theorem Inv.attempt_none (h : c.Inv) (hl : c.link = some l) : c.attempt = none := by
  cases ha : c.attempt with
  | none => rfl
  | some a =>
    have hnone := (h.attempting (by rw [ha]; rfl)).2
    rw [hl] at hnone
    cases hnone

/-- A client that is connected goes on with its connection. -/
theorem Inv.withLink (h : c.Inv) (hl : c.link = some l) {m : Link} (hm : Sound m) :
    ({ c with link := some m }).Inv :=
  .link (h.connected (by rw [hl]; rfl)) (h.attempt_none hl) rfl hm

theorem Inv.finish (h : c.Inv) (task : Nat) (r : Result) : (c.finish task r).Inv :=
  ⟨h.attempting, h.connected, h.greeting, h.sound⟩

section
variable (hc : c.connecting = true) (hl : c.link = none)
include hc hl

theorem Inv.continueClosing (task : Nat) (m : Link) (reason : LinkError) :
    (c.continueClosing task m reason).Inv := by
  unfold Client.continueClosing
  split
  · exact .unconnected rfl hl
  · exact .attempt hc rfl hl fun _ h => by cases h

theorem Inv.continueGreeting (task : Nat) (hs : Sound l) : (c.continueGreeting task l).Inv := by
  unfold Client.continueGreeting
  split
  · exact .attempt hc rfl hl fun m hm => by cases hm; exact hs
  · exact .continueClosing hc hl task _ _
  · have hgreeted := (hs.withResults (Table.erase l.results task)).event (e := .startProbe)
      fun _ ht => by cases ht
    exact .link hc rfl rfl hgreeted
  · exact .attempt hc rfl hl fun m hm => by cases hm; exact hs

end

/-! ## Events -/

theorem Inv.ofSettings (settings : Settings) : (Client.ofSettings settings).Inv :=
  .unconnected rfl rfl

theorem Inv.connect (h : c.Inv) (task : Nat) (credentials : Except SettingsError Credentials) :
    (c.connect task credentials).Inv := by
  unfold Client.connect
  split
  · exact h.finish task _
  · rename_i hc
    have hl : c.link = none := by
      cases hl : c.link with
      | none => rfl
      | some l => exact absurd (h.connected (by rw [hl]; rfl)) hc
    split
    · exact h.finish task _
    · split
      · exact h.finish task _
      · exact .attempt rfl rfl hl fun _ hs => by cases hs

theorem Inv.opened (h : c.Inv) {credentials : Credentials}
    (ha : c.attempt = some ⟨task, .opening credentials⟩) (opening : Opening) :
    (c.opened task credentials opening).Inv := by
  obtain ⟨hc, hl⟩ := h.attempting (by rw [ha]; rfl)
  cases opening with
  | opened =>
    exact .continueGreeting hc hl task
      ((Sound.ofSettings c.settings).event (e := .handshake task credentials)
        fun _ ht => by cases ht)
  | failed reason | timedOut => exact .unconnected rfl hl

theorem Inv.step (h : c.Inv) (e : Event) : (c.step e).Inv := by
  cases e with
  | connect task credentials => exact h.connect task credentials
  | opened opening =>
    dsimp only [Client.step]
    split
    · rename_i ha
      exact h.opened ha opening
    · exact h
  | handshakeLate =>
    dsimp only [Client.step]
    split
    · rename_i ha
      obtain ⟨hc, hl⟩ := h.attempting (by rw [ha]; rfl)
      exact .continueClosing hc hl _ _ _
    · exact h
  | dropAttempt => exact ⟨by simp [Client.step], h.connected, by simp [Client.step], h.sound⟩
  | start task o =>
    dsimp only [Client.step, Client.start]
    split
    · rename_i l hl
      exact h.withLink hl ((h.sound l hl).event fun _ ht => by cases ht)
    · exact h.finish task _
  | link e =>
    dsimp only [Client.step]
    split
    · rename_i he
      split
      · rename_i task l ha
        obtain ⟨hc, hl⟩ := h.attempting (by rw [ha]; rfl)
        exact .continueGreeting hc hl task ((h.greeting task l ha).ofLink he)
      · rename_i ha
        obtain ⟨hc, hl⟩ := h.attempting (by rw [ha]; rfl)
        exact .continueClosing hc hl _ _ _
      · rename_i l hl _ _
        exact h.withLink hl ((h.sound l hl).ofLink he)
      · exact h
    · exact h
  | dropClient =>
    dsimp only [Client.step]
    cases hl : c.link with
    | none => exact ⟨fun ha => ⟨(h.attempting ha).1, rfl⟩, fun hs => (by cases hs), h.greeting,
        fun _ hm => (by cases hm)⟩
    | some l =>
      exact h.withLink hl ((h.sound l hl).event (e := .teardown _) fun _ ht => by cases ht; rfl)

theorem Inv.run (h : c.Inv) (events : List Event) : (c.run events).Inv := by
  induction events generalizing c with
  | nil => exact h
  | cons e events ih => exact ih (h.step e)

theorem Reachable.inv (h : c.Reachable) : c.Inv := by
  obtain ⟨settings, events, rfl⟩ := h
  exact (Inv.ofSettings settings).run events

/-! ## A client that is connected -/

/-- What happens to a client that is connected is an event of its connection, or does not concern
it; and nobody's result changes, except that an attempt to connect fails. -/
theorem step_connected (h : c.Inv) (hl : c.link = some l) (e : Event) :
    (c.step e).link = some (l.run e.onLink?.toList) ∧
      ∀ task, (∀ credentials, e ≠ .connect task credentials) →
        (c.step e).results.lookup task = c.results.lookup task := by
  have ha := h.attempt_none hl
  have hc := h.connected (by rw [hl]; rfl)
  cases e with
  | connect n credentials =>
    simp only [Client.step, Client.connect, hc, ↓reduceIte]
    refine ⟨hl, fun task hne => Table.lookup_insert_ne fun he => hne credentials ?_⟩
    rw [he]
  | opened _ | handshakeLate =>
    refine ⟨?_, fun _ _ => ?_⟩ <;> simp only [Client.step, ha]
    exact hl
  | dropAttempt => exact ⟨hl, fun _ _ => rfl⟩
  | start n o =>
    refine ⟨?_, fun _ _ => ?_⟩ <;> simp only [Client.step, Client.start, hl]
    rfl
  | link e =>
    by_cases he : isOfLink e = true
    · refine ⟨?_, fun _ _ => ?_⟩ <;>
        simp only [Client.step, ha, hl, Event.onLink?, he, ↓reduceIte]
      rfl
    · refine ⟨?_, fun _ _ => ?_⟩ <;> simp only [Client.step, Event.onLink?, if_neg he]
      exact hl
  | dropClient =>
    refine ⟨?_, fun _ _ => rfl⟩
    simp only [Client.step, hl]
    rfl

theorem run_connected (h : c.Inv) (hl : c.link = some l) (events : List Event) :
    (c.run events).link = some (l.run (events.filterMap Event.onLink?)) ∧
      ∀ task, (∀ credentials, .connect task credentials ∉ events) →
        (c.run events).results.lookup task = c.results.lookup task := by
  induction events generalizing c l with
  | nil => exact ⟨hl, fun _ _ => rfl⟩
  | cons e events ih =>
    obtain ⟨hlink, hresults⟩ := step_connected h hl e
    obtain ⟨hlink', hresults'⟩ := ih (h.step e) hlink
    refine ⟨hlink'.trans ?_, fun task hno => ?_⟩
    · rw [← Link.run_append]
      cases he : e.onLink? <;> simp [he]
    · simp only [List.mem_cons, not_or] at hno
      exact (hresults' task fun credentials => (hno credentials).2).trans
        (hresults task fun credentials => Ne.symm (hno credentials).1)

end Client

end ServerLink
