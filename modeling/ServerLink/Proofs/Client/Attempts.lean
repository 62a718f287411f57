import ServerLink.Proofs.Client.Afterwards
import ServerLink.Proofs.Link.Errors

/-!
# Attempts to connect

A client remembers in one flag that an attempt to connect is going on and that one has succeeded.
An attempt that fails takes the flag back; one that its caller drops does not. A client therefore
refuses to connect while an attempt is going on, after one has succeeded, and after one was dropped
(`connects_are_refused_after`), though the last is none of its business
(`dropped_attempt_locks_the_client`).
-/

namespace ServerLink.Client

/-- An attempt of this number ends in this step, and gives a result. -/
def Ends (c : Client) (e : Event) (task : Nat) (r : Result) : Prop :=
  (∃ stage, c.attempt = some ⟨task, stage⟩) ∧ e ≠ .dropAttempt ∧ (c.step e).attempt = none ∧
    (c.step e).results.lookup task = some r

/-- An attempt succeeds in this step. -/
def Succeeds (c : Client) (e : Event) : Prop := ∃ task, c.Ends e task (.ok .done)

/-- An attempt is given up by its caller in this step. -/
def Drops (c : Client) (e : Event) : Prop := c.attempt.isSome = true ∧ e = .dropAttempt

/-- There is a step of this kind in a run. -/
def Once (P : Client → Event → Prop) (c : Client) (events : List Event) : Prop :=
  ∃ before e after, events = before ++ e :: after ∧ P (c.run before) e

/-- The errors that a client keeps are those of its connections. -/
structure OwnErrors (c : Client) : Prop where
  greeting : ∀ task l, c.attempt = some ⟨task, .greeting l⟩ → l.OwnErrors
  closing : ∀ task l reason, c.attempt = some ⟨task, .closing l reason⟩ → reason.isOfLink = true
  link : ∀ l, c.link = some l → l.OwnErrors

/-- What becomes of an attempt, if nobody drops it. -/
inductive Attempted (c d : Client) : Prop
  | kept (connecting : d.connecting = c.connecting)
      (attempt : d.attempt.map (·.task) = c.attempt.map (·.task))
      (link : d.link.isSome = c.link.isSome)
  | begun (connecting : c.connecting = false ∧ d.connecting = true)
      (attempt : d.attempt.isSome = true) (link : d.link = c.link)
  | failed (task : Nat) (reason : LinkError) (own : reason.isOfLink = true)
      (connecting : d.connecting = false)
      (attempt : (∃ stage, c.attempt = some ⟨task, stage⟩) ∧ d.attempt = none)
      (link : d.link = c.link) (result : d.results.lookup task = some (.error reason))
  | connected (task : Nat) (connecting : d.connecting = c.connecting)
      (attempt : (∃ stage, c.attempt = some ⟨task, stage⟩) ∧ d.attempt = none)
      (link : d.link.isSome = true) (result : d.results.lookup task = some (.ok .done))

variable {c : Client} {l : Link} {task : Nat} {reason : LinkError} {e : Event}

theorem run_append (c : Client) (before after : List Event) :
    c.run (before ++ after) = (c.run before).run after := List.foldl_append

theorem run_concat (c : Client) (events : List Event) (e : Event) :
    c.run (events ++ [e]) = (c.run events).step e := by rw [run_append]; rfl

theorem once_nil {P : Client → Event → Prop} : ¬ Once P c [] := by
  rintro ⟨before, e, after, h, -⟩
  cases before <;> cases h

theorem once_concat {P : Client → Event → Prop} {events : List Event} :
    Once P c (events ++ [e]) ↔ Once P c events ∨ P (c.run events) e :=
  exists_split_concat

/-! ## The errors of a client -/

namespace OwnErrors

theorem unattempted (hc : ∀ l, c.link = some l → l.OwnErrors) (ha : c.attempt = none) :
    c.OwnErrors := ⟨by simp [ha], by simp [ha], hc⟩

theorem finish (h : c.OwnErrors) (task : Nat) (r : Result) : (c.finish task r).OwnErrors :=
  ⟨h.greeting, h.closing, h.link⟩

theorem continueClosing (h : c.OwnErrors) (task : Nat) (l : Link) (hr : reason.isOfLink = true) :
    (c.continueClosing task l reason).OwnErrors := by
  unfold Client.continueClosing
  split
  · exact unattempted h.link rfl
  · exact ⟨fun _ _ ha => (by cases ha), fun _ _ _ ha => (by cases ha; exact hr), h.link⟩

theorem withLink (h : c.OwnErrors) (hl : l.OwnErrors) : ({ c with link := some l }).OwnErrors :=
  ⟨h.greeting, h.closing, fun _ hm => by cases hm; exact hl⟩

theorem atGreeting (h : c.OwnErrors) (hl : l.OwnErrors) :
    ({ c with attempt := some ⟨task, .greeting l⟩ }).OwnErrors :=
  ⟨fun _ _ ha => (by cases ha; exact hl), fun _ _ _ ha => (by cases ha), h.link⟩

theorem closeAttempt (h : c.OwnErrors) (task : Nat) (l : Link) (hr : reason.isOfLink = true) :
    (c.closeAttempt task l reason).OwnErrors := h.continueClosing task _ hr

theorem continueGreeting (h : c.OwnErrors) (task : Nat) (hl : l.OwnErrors) :
    (c.continueGreeting task l).OwnErrors := by
  unfold Client.continueGreeting
  split
  · exact h.atGreeting hl
  · rename_i why hr
    exact h.closeAttempt task l (hl.results task _ hr why rfl)
  · have hgreeted := (hl.eraseResult task).event (e := .startProbe) (by rintro _ ⟨⟩)
    exact .unattempted (by rintro _ ⟨⟩; exact hgreeted) rfl
  · exact h.atGreeting hl

theorem opened (h : c.OwnErrors) (task : Nat) (credentials : Credentials) (opening : Opening) :
    (c.opened task credentials opening).OwnErrors := by
  cases opening with
  | opened => exact h.continueGreeting task ((Link.OwnErrors.ofSettings _).startHandshake task _)
  | failed _ | timedOut => exact .unattempted h.link rfl

theorem ofLink {m : Link} (h : m.OwnErrors) {e : Link.Event} (he : isOfLink e = true) :
    (m.step e).OwnErrors := h.event (by rintro _ rfl; cases he)

theorem step (h : c.OwnErrors) (e : Event) : (c.step e).OwnErrors := by
  cases e with
  | connect task credentials =>
    dsimp only [Client.step, Client.connect]
    repeat' split
    · exact h.finish task _
    · exact h.finish task _
    · exact h.finish task _
    · exact ⟨by rintro _ _ ⟨⟩, by rintro _ _ _ ⟨⟩, h.link⟩
  | opened opening =>
    dsimp only [Client.step]
    split
    · exact h.opened _ _ _
    · exact h
  | handshakeLate =>
    dsimp only [Client.step]
    split
    · exact h.closeAttempt _ _ rfl
    · exact h
  | dropAttempt => exact .unattempted h.link rfl
  | start task o =>
    dsimp only [Client.step, Client.start]
    split
    · rename_i l hl
      exact h.withLink ((h.link l hl).event (by rintro _ ⟨⟩))
    · exact h.finish task _
  | link e =>
    dsimp only [Client.step]
    split
    · rename_i he
      split
      · rename_i task l ha
        exact h.continueGreeting task (ofLink (h.greeting task l ha) he)
      · rename_i task l reason ha
        exact h.continueClosing task _ (h.closing task l reason ha)
      · rename_i l hl _ _
        exact h.withLink (ofLink (h.link l hl) he)
      · exact h
    · exact h
  | dropClient =>
    refine ⟨h.greeting, h.closing, fun m hm => ?_⟩
    obtain ⟨l, hl, rfl⟩ := Option.map_eq_some_iff.1 hm
    exact (h.link l hl).teardown rfl

theorem run (h : c.OwnErrors) (events : List Event) : (c.run events).OwnErrors := by
  induction events generalizing c with
  | nil => exact h
  | cons e events ih => exact ih (h.step e)

end OwnErrors

theorem Reachable.ownErrors (h : c.Reachable) : c.OwnErrors := by
  obtain ⟨settings, events, rfl⟩ := h
  exact .run (.unattempted (by rintro _ ⟨⟩) rfl) events

/-! ## What becomes of an attempt -/

namespace Attempted

/-- Nothing that concerns attempts. -/
theorem same {d : Client} (hc : d.connecting = c.connecting) (ha : d.attempt = c.attempt)
    (hl : d.link.isSome = c.link.isSome) : Attempted c d := .kept hc (by rw [ha]) hl

section
variable {stage : Attempt.Stage} (ha : c.attempt = some ⟨task, stage⟩)
include ha

theorem failAttempt (hr : reason.isOfLink = true) : Attempted c (c.failAttempt task reason) :=
  .failed task reason hr rfl ⟨⟨stage, ha⟩, rfl⟩ rfl Table.lookup_insert_self

theorem continueClosing (m : Link) (hr : reason.isOfLink = true) :
    Attempted c (c.continueClosing task m reason) := by
  unfold Client.continueClosing
  split
  · exact failAttempt ha hr
  · exact .kept rfl (by rw [ha]; rfl) rfl

theorem continueGreeting {m : Link} (hm : m.OwnErrors) :
    Attempted c (c.continueGreeting task m) := by
  unfold Client.continueGreeting
  split
  · exact .kept rfl (by rw [ha]; rfl) rfl
  · rename_i why hr
    exact continueClosing ha _ (hm.results task _ hr why rfl)
  · exact .connected task rfl ⟨⟨stage, ha⟩, rfl⟩ rfl Table.lookup_insert_self
  · exact .kept rfl (by rw [ha]; rfl) rfl

end

/-- An attempt goes on, fails or succeeds, unless it is dropped. -/
theorem step (h : c.OwnErrors) (he : e ≠ .dropAttempt) : Attempted c (c.step e) := by
  cases e with
  | connect task credentials =>
    dsimp only [Client.step, Client.connect]
    split
    · exact same rfl rfl rfl
    · rename_i hc
      repeat' split
      · exact same rfl rfl rfl
      · exact same rfl rfl rfl
      · exact .begun ⟨by simpa using hc, rfl⟩ rfl rfl
  | opened opening =>
    dsimp only [Client.step]
    split
    · rename_i task credentials ha
      cases opening with
      | opened => exact continueGreeting ha ((Link.OwnErrors.ofSettings _).startHandshake task _)
      | failed _ | timedOut => exact failAttempt ha rfl
    · exact same rfl rfl rfl
  | handshakeLate =>
    dsimp only [Client.step]
    split
    · rename_i ha
      exact continueClosing ha _ rfl
    · exact same rfl rfl rfl
  | dropAttempt => exact absurd rfl he
  | start task o =>
    dsimp only [Client.step, Client.start]
    split
    · rename_i hl
      exact same rfl rfl (by rw [hl]; rfl)
    · exact same rfl rfl rfl
  | link e =>
    dsimp only [Client.step]
    split
    · rename_i he
      split
      · rename_i ha
        exact continueGreeting ha (OwnErrors.ofLink (h.greeting _ _ ha) he)
      · rename_i ha
        exact continueClosing ha _ (h.closing _ _ _ ha)
      · rename_i hl _ _
        exact same rfl rfl (by rw [hl]; rfl)
      · exact same rfl rfl rfl
    · exact same rfl rfl rfl
  | dropClient => exact same rfl rfl Option.isSome_map

end Attempted

/-- An attempt that ends by itself fails with an error of a connection, or is connected. -/
theorem Ends.outcome (h : c.OwnErrors) {r : Result} (he : c.Ends e task r) :
    (∃ reason, reason.isOfLink = true ∧ r = .error reason ∧ (c.step e).connecting = false ∧
      (c.step e).link = c.link) ∨ r = .ok .done ∧ (c.step e).link.isSome = true := by
  obtain ⟨⟨stage, ha⟩, hne, hend, hr⟩ := he
  have hsame : ∀ {n}, (∃ stage, c.attempt = some ⟨n, stage⟩) → n = task := by
    rintro n ⟨_, hn⟩
    rw [ha] at hn
    cases hn
    rfl
  cases Attempted.step h hne with
  | kept _ hk _ => rw [ha, hend] at hk; cases hk
  | begun _ hk _ => rw [hend] at hk; cases hk
  | failed n reason own hc hk hl hres =>
    cases hsame hk.1
    exact .inl ⟨reason, own, Option.some.inj (hr.symm.trans hres), hc, hl⟩
  | connected n _ hk hl hres =>
    cases hsame hk.1
    exact .inr ⟨Option.some.inj (hr.symm.trans hres), hl⟩

theorem Ends.ne_alreadyConnected (h : c.OwnErrors) {r : Result} (he : c.Ends e task r) :
    r ≠ .error .alreadyConnected := by
  rcases he.outcome h with ⟨reason, own, rfl, -⟩ | ⟨rfl, -⟩
  · rintro ⟨⟩
    cases own
  · simp

theorem Succeeds.link (h : c.OwnErrors) (hs : c.Succeeds e) : (c.step e).link.isSome = true := by
  obtain ⟨task, he⟩ := hs
  rcases he.outcome h with ⟨reason, -, hr, -⟩ | ⟨-, hl⟩
  · cases hr
  · exact hl

theorem Succeeds.ended (hs : c.Succeeds e) :
    c.attempt.isSome = true ∧ (c.step e).attempt = none := by
  obtain ⟨task, ⟨stage, ha⟩, -, hend, -⟩ := hs
  exact ⟨by rw [ha]; rfl, hend⟩

/-! ## The flag -/

/-- What the flag and the connection of a client stand for, after a run. -/
structure Remembers (c : Client) (events : List Event) : Prop where
  flag : (c.run events).connecting = true ↔ (c.run events).attempt.isSome = true ∨
    Once Succeeds c events ∨ Once Drops c events
  connected : (c.run events).link.isSome = true ↔ Once Succeeds c events
  dropped : Once Drops c events → (c.run events).attempt = none

namespace Remembers

variable {events : List Event} (h : c.Remembers events)
include h

theorem drop : c.Remembers (events ++ [.dropAttempt]) := by
  have hs : ¬ (c.run events).Succeeds .dropAttempt := fun ⟨_, he⟩ => he.2.1 rfl
  have hd : (c.run events).Drops .dropAttempt ↔ (c.run events).attempt.isSome = true := by
    simp [Drops]
  refine ⟨?_, ?_, fun _ => by rw [run_concat]; rfl⟩
  · rw [run_concat, once_concat, once_concat, hd]
    refine h.flag.trans ?_
    simp only [hs, Client.step, Option.isSome_none, Bool.false_eq_true, or_false, false_or]
    tauto
  · rw [run_concat, once_concat, or_iff_left hs]
    exact h.connected

/-- While an attempt is going on, none has succeeded or been dropped before. -/
theorem going (hi : (c.run events).Inv) (ha : (c.run events).attempt.isSome = true) :
    (c.run events).link = none ∧ ¬ Once Succeeds c events ∧ ¬ Once Drops c events := by
  have hl := (hi.attempting ha).2
  refine ⟨hl, fun hold => ?_, fun hold => ?_⟩
  · have hsome := h.connected.2 hold
    rw [hl] at hsome
    cases hsome
  · rw [h.dropped hold] at ha
    cases ha

theorem go (hi : (c.run events).Inv) (ho : (c.run events).OwnErrors) (he : e ≠ .dropAttempt) :
    c.Remembers (events ++ [e]) := by
  have hd : ¬ (c.run events).Drops e := fun hd => he hd.2
  have hdrops : Once Drops c (events ++ [e]) ↔ Once Drops c events := by
    rw [once_concat, or_iff_left hd]
  cases Attempted.step ho he with
  | kept hc ha hl =>
    have hsome : ((c.run events).step e).attempt.isSome = (c.run events).attempt.isSome := by
      simpa using congrArg Option.isSome ha
    have hs : Once Succeeds c (events ++ [e]) ↔ Once Succeeds c events := by
      rw [once_concat, or_iff_left fun hs => ?_]
      obtain ⟨hbefore, hafter⟩ := hs.ended
      rw [hbefore, hafter] at hsome
      cases hsome
    refine ⟨?_, ?_, fun hold => ?_⟩
    · rw [hs, hdrops, run_concat, hc, hsome]
      exact h.flag
    · rw [hs, run_concat, hl]
      exact h.connected
    · have hnone := h.dropped (hdrops.1 hold)
      rw [run_concat, ← Option.isNone_iff_eq_none, ← Option.not_isSome, hsome, hnone]
      rfl
  | begun hc ha hl =>
    have hno : ¬ Once Drops c events := fun hold => by
      have hset := h.flag.2 (.inr (.inr hold))
      rw [hc.1] at hset
      cases hset
    have hs : Once Succeeds c (events ++ [e]) ↔ Once Succeeds c events := by
      rw [once_concat, or_iff_left fun hs => ?_]
      rw [hs.ended.2] at ha
      cases ha
    refine ⟨?_, ?_, fun hold => absurd (hdrops.1 hold) hno⟩
    · rw [run_concat]
      exact iff_of_true hc.2 (.inl ha)
    · rw [hs, run_concat, hl]
      exact h.connected
  | failed n reason _ hc ha hl _ =>
    obtain ⟨hlink, hsucceeded, hdropped⟩ := h.going hi (by rw [ha.1.choose_spec]; rfl)
    have hs : ¬ Once Succeeds c (events ++ [e]) := by
      rw [once_concat, not_or]
      refine ⟨hsucceeded, fun hs => ?_⟩
      have hsome := hs.link ho
      rw [hl, hlink] at hsome
      cases hsome
    refine ⟨?_, ?_, fun _ => by rw [run_concat, ha.2]⟩
    · rw [run_concat, hc, ha.2, hdrops]
      simp [hs, hdropped]
    · rw [run_concat, hl, hlink]
      simpa using hs
  | connected n hc ha hl hr =>
    have hgoing : (c.run events).attempt.isSome = true := by rw [ha.1.choose_spec]; rfl
    have hs : Once Succeeds c (events ++ [e]) := once_concat.2 (.inr ⟨n, ha.1, he, ha.2, hr⟩)
    refine ⟨?_, ?_, fun _ => by rw [run_concat, ha.2]⟩
    · rw [run_concat, hc]
      exact iff_of_true (hi.attempting hgoing).1 (.inr (.inl hs))
    · rw [run_concat]
      exact iff_of_true hl hs

omit h in
theorem ofSettings (settings : Settings) (events : List Event) :
    (Client.ofSettings settings).Remembers events := by
  induction events using List.reverseRecOn with
  | nil =>
    refine ⟨?_, ?_, fun hold => absurd hold once_nil⟩
    · simp [Client.run, Client.ofSettings, once_nil]
    · simp [Client.run, Client.ofSettings, once_nil]
  | append_singleton events e ih =>
    by_cases he : e = .dropAttempt
    · exact he ▸ ih.drop
    · have hr : ((Client.ofSettings settings).run events).Reachable := ⟨settings, events, rfl⟩
      exact ih.go hr.inv hr.ownErrors he

end Remembers

/-- After a success no attempt goes on any more. -/
theorem Succeeds.last (hr : c.Reachable) (hs : c.Succeeds e) (events : List Event) :
    ((c.step e).run events).attempt = none := by
  obtain ⟨l, hl⟩ := Option.isSome_iff_exists.1 (hs.link hr.ownErrors)
  have hi := hr.inv.step e
  exact (hi.run events).attempt_none (run_connected hi hl events).1

/-- Two successes in a run are the same. -/
theorem Succeeds.unique {settings : Settings} {before after before' after' : List Event}
    {e' : Event} (h : before ++ e :: after = before' ++ e' :: after')
    (hs : ((ofSettings settings).run before).Succeeds e)
    (hs' : ((ofSettings settings).run before').Succeeds e') : before = before' := by
  -- whichever comes first ends all attempts before the other can go on
  have hlt : ∀ {b b' : List Event} {d d' : Event} {a' : List Event} {a : List Event},
      b ++ d :: a = b' ++ d' :: a' → ((ofSettings settings).run b).Succeeds d →
      ((ofSettings settings).run b').Succeeds d' → ¬ b.length < b'.length := by
    intro b b' d d' a' a hb hd hd' hlen
    obtain ⟨m, rfl⟩ : ∃ m, b' = b ++ d :: m := by
      have hfirst : b ++ [d] <+: b ++ d :: a := ⟨a, by simp⟩
      obtain ⟨m, hm⟩ := List.prefix_of_prefix_length_le hfirst ⟨_, hb.symm⟩ (by simpa using hlen)
      exact ⟨m, by simpa using hm.symm⟩
    have hnone := hd.last ⟨settings, b, rfl⟩ m
    rw [← run_concat, ← run_append, List.append_assoc] at hnone
    have hsome := hd'.ended.1
    rw [List.singleton_append] at hnone
    rw [hnone] at hsome
    cases hsome
  have hlen : before.length = before'.length :=
    le_antisymm (not_lt.1 (hlt h.symm hs' hs)) (not_lt.1 (hlt h hs hs'))
  exact (List.append_inj h hlen).1

variable {settings : Settings} {events : List Event}

/-- A connect is refused at once, or not for that. -/
theorem connect_refused (credentials : Except SettingsError Credentials)
    (hf : c.results.lookup task = none) :
    (c.step (.connect task credentials)).results.lookup task = some (.error .alreadyConnected) ↔
      c.connecting = true := by
  dsimp only [Client.step, Client.connect]
  have hgives : ∀ r, (c.finish task r).results.lookup task = some r := fun r =>
    Table.lookup_insert_self
  split
  · rename_i hc
    exact iff_of_true (hgives _) hc
  · rename_i hc
    refine iff_of_false ?_ hc
    repeat' split
    · rename_i why _
      rw [hgives]
      cases why <;> simp [LinkError.ofSettings]
    · rw [hgives]
      simp [unopened]
    · rw [hf]
      simp

/-- **When a client refuses to connect.** Whatever has happened to a client, it refuses to connect
exactly when an attempt is still going on, one has succeeded before, or one was dropped by its
caller while it went on. An attempt that was admitted never ends as if it had been refused, and at
most one attempt ever succeeds. -/
theorem connects_are_refused_after
    (hf : ((ofSettings settings).run events).results.lookup task = none) :
    (∀ credentials, (((ofSettings settings).run events).step
        (.connect task credentials)).results.lookup task = some (.error .alreadyConnected) ↔
      ((ofSettings settings).run events).attempt.isSome = true ∨
        Once Succeeds (ofSettings settings) events ∨ Once Drops (ofSettings settings) events) ∧
    (∀ n e r, ((ofSettings settings).run events).Ends e n r → r ≠ .error .alreadyConnected) ∧
    ∀ before e after before' e' after', before ++ e :: after = events →
      before' ++ e' :: after' = events → ((ofSettings settings).run before).Succeeds e →
      ((ofSettings settings).run before').Succeeds e' → before = before' := by
  have hr : ((ofSettings settings).run events).Reachable := ⟨settings, events, rfl⟩
  refine ⟨fun credentials => ?_, fun n e r he => he.ne_alreadyConnected hr.ownErrors, ?_⟩
  · exact (connect_refused credentials hf).trans (Remembers.ofSettings settings events).flag
  · rintro before e after before' e' after' rfl h hs hs'
    exact hs.unique h.symm hs'

/-- While one attempt goes on, another is refused. -/
theorem second_attempt_is_refused :
    ((ofSettings named).run [.connect 1 (.ok visitor)]).results.lookup 2 = none ∧
    (((ofSettings named).run [.connect 1 (.ok visitor)]).step
      (.connect 2 (.ok visitor))).results.lookup 2 = some (.error .alreadyConnected) := by
  have hrun : (ofSettings named).run [.connect 1 (.ok visitor)] =
      { settings := named, connecting := true, attempt := some ⟨1, .opening visitor⟩ } := by cbv
  have hf : ((ofSettings named).run [.connect 1 (.ok visitor)]).results.lookup 2 = none := by
    rw [hrun]
    rfl
  refine ⟨hf, ((connects_are_refused_after hf).1 (.ok visitor)).2 (.inl ?_)⟩
  rw [hrun]
  rfl

/-- A client whose first attempt was dropped refuses to connect, though nothing goes on and nothing
has succeeded. -/
theorem dropped_attempt_locks_the_client :
    ((ofSettings named).run [.connect 1 (.ok visitor), .dropAttempt]).attempt = none ∧
    (((ofSettings named).run [.connect 1 (.ok visitor), .dropAttempt]).step
      (.connect 2 (.ok visitor))).results.lookup 2 = some (.error .alreadyConnected) ∧
    ¬ ∀ settings events task credentials,
      ((ofSettings settings).run events).results.lookup task = none →
      ((((ofSettings settings).run events).step (.connect task credentials)).results.lookup task =
          some (.error .alreadyConnected) ↔
        ((ofSettings settings).run events).attempt.isSome = true ∨
          Once Succeeds (ofSettings settings) events) := by
  have hrun : (ofSettings named).run [.connect 1 (.ok visitor), .dropAttempt] =
      { settings := named, connecting := true } := by cbv
  have hrefused : (((ofSettings named).run [.connect 1 (.ok visitor), .dropAttempt]).step
      (.connect 2 (.ok visitor))).results.lookup 2 = some (.error .alreadyConnected) := by
    rw [hrun]
    rfl
  refine ⟨by rw [hrun], hrefused, fun hall => ?_⟩
  rcases (hall named _ 2 (.ok visitor) (by rw [hrun]; rfl)).1 hrefused with ha | hs
  · rw [hrun] at ha
    cases ha
  · have hl := (Remembers.ofSettings named _).connected.2 hs
    rw [hrun] at hl
    cases hl

end ServerLink.Client
