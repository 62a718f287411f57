import ServerLink.Proofs.Transport.Files
import ServerLink.Proofs.Transport.Lifecycle

/-!
# The version that a transport tells

Whoever uses a transport may read the server's version once a connect has succeeded, and it stays the
same (`versions_are_told_once_connected`). The one exception is the transport for files alone: it
connects like the others and never has a version to tell (`files_connect_without_version`).
-/

namespace ServerLink

/-- A transport that has been made, and to which nothing has happened. -/
inductive Transport.New : Transport → Prop
  | client (settings : Settings) : New (.client (.ofSettings settings))
  | files : New .files
  | refusing : New .refusing
  | standIn {m : StandIn} (h : m.Prepared) : New (.standIn m)

namespace Gateway

variable {σ : Type}

/-- What an event is for a client. -/
def Event.ofClient? : Event → Option Client.Event
  | .connect task credentials => some (.connect task credentials)
  | .start task o => some (.start task o)
  | .act s a => some (.link (.subscriber s a))
  | .client e => some e
  | .push _ _ | .file _ => none

/-- A connect of the transport succeeds in this step. A client needs time for it. -/
def Connects (t : Transport) (e : Event) : Prop :=
  match t with
  | .client c => ∃ d, e.ofClient? = some d ∧ c.Succeeds d
  | .files | .refusing | .standIn _ => ∃ task credentials, e = .connect task credentials ∧
      (t.connect task credentials).1 = some (.ok .done)

namespace State

/-- A connect has succeeded in a history. -/
def HasConnected (s : State σ) (events : List Event) : Prop :=
  ∃ before e after, events = before ++ e :: after ∧ Connects (s.run before).gateway.transport e

/-- The version that the transport tells. -/
def version? (s : State σ) : Option Version := s.gateway.transport.version?

/-- The transport tells a version just when it has connected, and the same one for ever. -/
structure TellsOnceConnected (s : State σ) (events : List Event) : Prop where
  told : (s.run events).version?.isSome ↔ s.HasConnected events
  kept : ∀ later v, (s.run events).version? = some v → (s.run (events ++ later)).version? = some v

variable {s : State σ} {c : Client} {m : StandIn} {events : List Event} {e : Event}

theorem run_append (s : State σ) (events events' : List Event) :
    s.run (events ++ events') = (s.run events).run events' := List.foldl_append

theorem run_concat (s : State σ) (events : List Event) (e : Event) :
    s.run (events ++ [e]) = (s.run events).step e := by
  rw [run_append]
  rfl

theorem not_hasConnected_nil : ¬s.HasConnected [] := by
  rintro ⟨before, e, after, h, -⟩
  cases before <;> cases h

theorem hasConnected_concat : s.HasConnected (events ++ [e]) ↔
    s.HasConnected events ∨ Connects (s.run events).gateway.transport e :=
  exists_split_concat

theorem HasConnected.append (h : s.HasConnected events) (later : List Event) :
    s.HasConnected (events ++ later) := by
  obtain ⟨before, e, after, rfl, hc⟩ := h
  exact ⟨before, e, after ++ later, by simp, hc⟩

theorem keep_transport (s : State σ) (task : Nat) (given : Option Result × Transport) :
    (s.keep task given).gateway.transport = given.2 := by
  obtain ⟨_ | r, t⟩ := given <;> exact s.setTransport_transport t

/-! ## Clients -/

theorem step_client (h : s.gateway.transport = .client c) (e : Event) :
    (s.step e).gateway.transport = .client (c.run e.ofClient?.toList) := by
  cases e with
  | connect task credentials | start task o =>
    rw [step, keep_transport, h]
    rfl
  | act sub a =>
    rw [step, h]
    rfl
  | push collection v | client e =>
    simp only [step, h]
    rfl
  | file r => exact h

theorem run_client (h : s.gateway.transport = .client c) (events : List Event) :
    (s.run events).gateway.transport = .client (c.run (events.filterMap Event.ofClient?)) := by
  induction events generalizing s c with
  | nil => exact h
  | cons e events ih =>
    have hsplit : (e :: events).filterMap Event.ofClient? =
        e.ofClient?.toList ++ events.filterMap Event.ofClient? := by
      cases he : e.ofClient? <;> simp [he]
    rw [hsplit, Client.run_append]
    exact ih (step_client h e)

/-- A client has connected when an attempt of its own has succeeded. -/
theorem hasConnected_client (h : s.gateway.transport = .client c) :
    s.HasConnected events ↔
      Client.Once Client.Succeeds c (events.filterMap Event.ofClient?) := by
  induction events using List.reverseRecOn with
  | nil => exact iff_of_false not_hasConnected_nil Client.once_nil
  | append_singleton events e ih =>
    rw [hasConnected_concat, ih, run_client h, List.filterMap_append]
    cases he : e.ofClient? with
    | none => simp [Connects, he]
    | some d =>
      have hlast : [e].filterMap Event.ofClient? = [d] := by simp [he]
      rw [hlast, Client.once_concat]
      simp [Connects, he]

theorem version_client {settings : Settings}
    (h : s.gateway.transport = .client (.ofSettings settings)) (events : List Event) :
    s.TellsOnceConnected events := by
  have hversion : ∀ events, (s.run events).version? =
      ((Client.ofSettings settings).run (events.filterMap Event.ofClient?)).version := fun events => by
    rw [version?, run_client h]
    rfl
  have hreachable : ((Client.ofSettings settings).run
      (events.filterMap Event.ofClient?)).Reachable := ⟨settings, _, rfl⟩
  refine ⟨?_, fun later v hv => ?_⟩
  · rw [hversion, hreachable.sane.version, hasConnected_client h]
    exact (Client.Remembers.ofSettings settings _).connected
  · rw [hversion] at hv
    have hlink := hreachable.sane.version
    rw [hv] at hlink
    obtain ⟨l, hl⟩ := Option.isSome_iff_exists.1 hlink.symm
    rw [hversion, List.filterMap_append, Client.run_append,
      Client.version_run hreachable.inv hl, hv]

/-! ## Stand-ins -/

theorem answer_keeps (m : StandIn) (o : Operation) :
    (Transport.answer m o).2.version = m.version ∧
      (Transport.answer m o).2.connected = m.connected := by
  cases o with
  | call method params token =>
    simp only [Transport.answer, StandIn.call]
    split <;> exact ⟨rfl, rfl⟩
  | callAndWait method params token =>
    simp only [Transport.answer, StandIn.callAndWait]
    split <;> exact ⟨rfl, rfl⟩
  | subscribe collection filter =>
    simp only [Transport.answer, StandIn.subscribe]
    split
    · exact ⟨rfl, rfl⟩
    · split <;> exact ⟨rfl, rfl⟩
  | close =>
    simp only [Transport.answer, StandIn.close]
    split <;> exact ⟨rfl, rfl⟩

theorem not_connects {t : Transport} (ht : ∀ c, t ≠ .client c)
    (he : ∀ task credentials, e ≠ .connect task credentials) : ¬Connects t e := by
  cases t with
  | client c => exact absurd rfl (ht c)
  | files | refusing | standIn m =>
    rintro ⟨task, credentials, h, -⟩
    exact he task credentials h

/-- A stand-in is connected from the first connect on, and its version is always the same. -/
theorem step_standIn (h : s.gateway.transport = .standIn m) (e : Event) : ∃ n,
    (s.step e).gateway.transport = .standIn n ∧ n.version = m.version ∧
      (n.connected = true ↔ m.connected = true ∨ Connects (.standIn m) e) := by
  have hno : (∀ task credentials, e ≠ .connect task credentials) → ∀ n : StandIn,
      n.connected = m.connected →
        (n.connected = true ↔ m.connected = true ∨ Connects (.standIn m) e) := by
    intro he n hn
    rw [hn, or_iff_left (not_connects (by simp) he)]
  cases e with
  | connect task credentials =>
    refine ⟨m.connect.2, ?_, ?_⟩
    · rw [step, keep_transport, h]
      rfl
    · cases hm : m.connected with
      | true =>
        have hsame : m.connect.2 = m := by simp [StandIn.connect, hm]
        rw [hsame]
        exact ⟨rfl, iff_of_true hm (.inl rfl)⟩
      | false =>
        have hconnect : m.connect = (.ok (), { m with connected := true }) := by
          simp [StandIn.connect, hm]
        rw [hconnect]
        refine ⟨rfl, iff_of_true rfl (.inr ⟨task, credentials, rfl, ?_⟩)⟩
        simp only [Transport.connect, hconnect]
        rfl
  | start task o =>
    obtain ⟨hversion, hconnected⟩ := answer_keeps m o
    refine ⟨(Transport.answer m o).2, ?_, hversion, hno (by simp) _ hconnected⟩
    rw [step, keep_transport, h]
    rfl
  | act sub a =>
    refine ⟨{ m with fanout := (m.fanout.act sub a).1 }, ?_, rfl, hno (by simp) _ rfl⟩
    rw [step, h]
    rfl
  | push collection v =>
    refine ⟨(m.push collection v).2, ?_, rfl, hno (by simp) _ rfl⟩
    simp only [step, h]
    rfl
  | client e =>
    refine ⟨m, ?_, rfl, hno (by simp) _ rfl⟩
    simp only [step, h]
  | file r => exact ⟨m, h, rfl, hno (by simp) _ rfl⟩

theorem run_standIn (h : s.gateway.transport = .standIn m) (hm : m.connected = false)
    (events : List Event) : ∃ n,
      (s.run events).gateway.transport = .standIn n ∧ n.version = m.version ∧
        (n.connected = true ↔ s.HasConnected events) := by
  induction events using List.reverseRecOn with
  | nil => exact ⟨m, h, rfl, by simp [hm, not_hasConnected_nil]⟩
  | append_singleton events e ih =>
    obtain ⟨n, hn, hversion, hconnected⟩ := ih
    obtain ⟨n', hn', hversion', hconnected'⟩ := step_standIn hn e
    refine ⟨n', by rw [run_concat, hn'], hversion'.trans hversion, ?_⟩
    rw [hconnected', hconnected, hasConnected_concat, hn]

theorem version_standIn (h : s.gateway.transport = .standIn m) (hm : m.connected = false)
    (events : List Event) : s.TellsOnceConnected events := by
  obtain ⟨n, hn, hversion, hconnected⟩ := run_standIn h hm events
  have hgives : (s.run events).version? = if n.connected then some n.version else none := by
    rw [version?, hn]
    rfl
  refine ⟨?_, fun later v hv => ?_⟩
  · rw [← hconnected, hgives]
    cases n.connected <;> simp
  · obtain ⟨n', hn', hversion', hconnected'⟩ := run_standIn h hm (events ++ later)
    rw [hgives] at hv
    obtain ⟨hc, hv⟩ := Option.ite_none_right_eq_some.1 hv
    have hc' : n'.connected = true := hconnected'.2 ((hconnected.1 hc).append later)
    rw [version?, hn']
    show (if n'.connected then some n'.version else none) = some v
    rw [if_pos hc', hversion', ← hversion, hv]

/-! ## Transports without a server -/

section
variable (h : s.gateway.transport = .files ∨ s.gateway.transport = .refusing)
include h

/-- A transport without a server stays as it is. -/
theorem step_serverless (e : Event) : (s.step e).gateway.transport = s.gateway.transport := by
  obtain h | h := h
  all_goals
    cases e with
    | connect task credentials | start task o =>
      rw [step, keep_transport, h]
      rfl
    | act sub a =>
      rw [step, h]
      rfl
    | push collection v | client e => simp only [step, h]
    | file r => rfl

theorem run_serverless (events : List Event) :
    (s.run events).gateway.transport = s.gateway.transport := by
  induction events using List.reverseRecOn with
  | nil => rfl
  | append_singleton events e ih =>
    rw [run_concat, step_serverless (by rw [ih]; exact h), ih]

theorem hasConnected_serverless :
    s.HasConnected events ↔ ∃ e ∈ events, Connects s.gateway.transport e := by
  constructor
  · rintro ⟨before, e, after, rfl, hc⟩
    rw [run_serverless h] at hc
    exact ⟨e, by simp, hc⟩
  · rintro ⟨e, he, hc⟩
    obtain ⟨before, after, rfl⟩ := List.append_of_mem he
    exact ⟨before, e, after, rfl, by rwa [run_serverless h]⟩

theorem version_serverless (events : List Event) : (s.run events).version? = none := by
  rw [version?, run_serverless h]
  obtain h | h := h <;> rw [h] <;> rfl

end

theorem not_connects_refusing (e : Event) : ¬Connects .refusing e := by
  rintro ⟨task, credentials, -, h⟩
  cases h

theorem connects_files : Connects .files e ↔ ∃ task credentials, e = .connect task credentials := by
  constructor
  · rintro ⟨task, credentials, he, -⟩
    exact ⟨task, credentials, he⟩
  · rintro ⟨task, credentials, he⟩
    exact ⟨task, credentials, he, rfl⟩

end State

/-- **A version is told once a connect has succeeded.** Whatever a new transport is and whatever
happens to it, it tells a version at the moments after a connect has succeeded, and at no others,
with one exception: the transport for files alone, once a connect was asked for. And the version that
is told stays the same. -/
theorem versions_are_told_once_connected {t : Transport} (ht : t.New)
    (files : Fallback σ) (store : σ) (events : List Event) :
    let s : State σ := { gateway := .of t files, store }
    (((s.run events).version?.isSome ↔ s.HasConnected events) ↔
      ¬(t = .files ∧ ∃ task credentials, .connect task credentials ∈ events)) ∧
    ∀ later v, (s.run events).version? = some v → (s.run (events ++ later)).version? = some v := by
  intro s
  cases ht with
  | client settings =>
    obtain ⟨hiff, hkept⟩ := State.version_client (s := s) rfl events
    exact ⟨iff_of_true hiff (by simp), hkept⟩
  | standIn h =>
    obtain ⟨hiff, hkept⟩ := State.version_standIn (s := s) rfl h.used.connected events
    exact ⟨iff_of_true hiff (by simp), hkept⟩
  | refusing =>
    have hnone := State.version_serverless (s := s) (.inr rfl)
    refine ⟨iff_of_true ?_ (by simp), fun later v hv => ?_⟩
    · rw [hnone, State.hasConnected_serverless (.inr rfl)]
      refine iff_of_false (by simp) ?_
      rintro ⟨e, -, hc⟩
      exact State.not_connects_refusing e hc
    · rw [hnone] at hv
      cases hv
  | files =>
    have hnone := State.version_serverless (s := s) (.inl rfl)
    have hconnected : s.HasConnected events ↔
        ∃ task credentials, .connect task credentials ∈ events := by
      rw [State.hasConnected_serverless (.inl rfl)]
      constructor
      · rintro ⟨e, he, hc⟩
        obtain ⟨task, credentials, rfl⟩ := State.connects_files.1 hc
        exact ⟨task, credentials, he⟩
      · rintro ⟨task, credentials, he⟩
        exact ⟨_, he, State.connects_files.2 ⟨task, credentials, rfl⟩⟩
    refine ⟨?_, fun later v hv => ?_⟩
    · rw [hnone, hconnected]
      simp
    · rw [hnone] at hv
      cases hv

/-- A stand-in is connected, asked for what it does not know, and closed. -/
def visit : List Event :=
  [.connect 1 (.error .noHost), .start 2 (.call "m" .null none), .start 3 .close]

theorem stand_in_tells_its_version : Transport.New (.standIn {}) ∧
    (State.run ({ gateway := .of (.standIn {}) .nowhere, store := () } : State Unit) visit).version? =
      some ⟨25, 4⟩ ∧
    State.HasConnected ({ gateway := .of (.standIn {}) .nowhere, store := () } : State Unit) visit ∧
    (State.run ({ gateway := .of (.standIn {}) .nowhere, store := () } : State Unit)
      (visit ++ visit)).version? = some ⟨25, 4⟩ := by
  have ht : Transport.New (.standIn {}) := .standIn (.new ⟨25, 4⟩ 64)
  obtain ⟨hiff, hkept⟩ := versions_are_told_once_connected ht .nowhere () visit
  exact ⟨ht, rfl, (hiff.2 (by simp)).1 rfl, hkept visit ⟨25, 4⟩ rfl⟩

/-- Says of everything that it is done, and does nothing. -/
def obliging : FileService Unit where
  write _ _ _ store := (.ok (), store)
  read _ store := (.ok [], store)
  delete _ store := (.ok (), store)
  removeAll _ store := (.ok (), store)
  isThere _ store := (.ok true, store)
  chown _ _ _ store := (.ok (), store)
  chmodAll _ _ store := (.ok (), store)
  mkdirAll _ _ store := (.ok (), store)

/-- The transport for files alone connects, and has no version to tell then. -/
theorem files_connect_without_version :
    (Transport.files.connect 1 (.error .noHost)).1 = some (.ok .done) ∧
    (State.run ({ gateway := .files (.ofService obliging), store := () } : State Unit)
      [.connect 1 (.error .noHost)]).version? = none ∧
    ¬∀ t, Transport.New t → ∀ events,
      let s : State Unit := { gateway := .of t (.ofService obliging), store := () }
      (s.run events).version?.isSome ↔ s.HasConnected events := by
  refine ⟨rfl, rfl, fun hall => ?_⟩
  have hiff := hall .files .files [.connect 1 (.error .noHost)]
  cases hiff.2 ⟨[], _, [], rfl, 1, _, rfl, rfl⟩

end Gateway

end ServerLink
