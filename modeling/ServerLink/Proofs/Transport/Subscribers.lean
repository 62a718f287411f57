import ServerLink.Proofs.Client.Connected
import ServerLink.Proofs.Link.Bystanders
import ServerLink.Proofs.Transport.Version

/-!
# Subscribers of a transport

Once a command has got a subscription from a client or a stand-in (`Transport.Serves`), what it does
with it comes to the subscriptions of the transport (`Serves.act`), and whatever else happens to the
transport spares the subscription (`Serves.step`).
-/

namespace ServerLink

open Fanout (Spares)

/-- Nothing reads this subscription or gives it up by this event; it may be closed. -/
def Gateway.Event.Spares (s : Subscription) (e : Gateway.Event) : Prop :=
  ∀ t act, e = .act t act ∨ e = .client (.link (.subscriber t act)) →
    t.key = s.key → t = s ∧ act = .close

namespace Transport

/-- Something happens to a transport. -/
def step (t : Transport) : Gateway.Event → Transport
  | .connect task credentials => (t.connect task credentials).2
  | .start task o => (t.start task o).2
  | .act s a => (t.act s a).2
  | .push collection v =>
    match t with
    | .standIn m => .standIn (m.push collection v).2
    | .client _ | .files | .refusing => t
  | .client e => t.goOn e
  | .file _ => t

def run (t : Transport) (events : List Gateway.Event) : Transport := events.foldl step t

/-- The transport has given somebody this subscription, and has it in no hand of its own. -/
inductive Serves (s : Subscription) : Transport → Prop
  | client {c : Client} {l : Link} (hc : c.Inv) (hl : c.link = some l) (hu : l.Unheld s)
      (hk : s.key ≤ l.fanout.lastKey) : Serves s (.client c)
  | standIn {m : StandIn} (hk : s.key ≤ m.fanout.lastKey) : Serves s (.standIn m)

variable {t : Transport} {s : Subscription} {q : Queue} {c : Client} {l : Link} {m m' : StandIn}
  {collection : String} {filter : Json}

/-! ## Events -/

theorem step_client (c : Client) (e : Gateway.Event) :
    (Transport.client c).step e = .client (c.run e.ofClient?.toList) := by
  cases e <;> rfl

theorem fanout_client (hl : c.link = some l) : (Transport.client c).fanout = l.fanout := by
  rw [fanout, hl]
  rfl

theorem Serves.issued (h : Serves s t) : s.key ≤ t.fanout.lastKey := by
  cases h with
  | client hc hl hu hk =>
    rw [fanout_client hl]
    exact hk
  | standIn hk => exact hk

/-- What the subscriber does comes to the subscriptions of the transport. -/
theorem Serves.act (h : Serves s t) (a : Fanout.Act) :
    (t.act s a).2.fanout = (t.fanout.act s a).1 ∧ Serves s (t.act s a).2 := by
  cases h with
  | @client c l hc hl hu hk =>
    have hlink := (Client.step_connected hc hl (.link (.subscriber s a))).1
    have hnext : (l.step (.subscriber s a)).fanout = (l.fanout.act s a).1 := rfl
    have hunheld : (l.step (.subscriber s a)).Unheld s := hu.shared rfl
    refine ⟨?_, .client (hc.step _) hlink hunheld ?_⟩
    · rw [fanout_client hl, ← hnext]
      exact fanout_client hlink
    · exact Nat.le_trans hk (Fanout.lastKey_le_step l.fanout (.act s a))
  | @standIn m hk =>
    exact ⟨rfl, .standIn (Nat.le_trans hk (Fanout.lastKey_le_step m.fanout (.act s a)))⟩

/-- What a stand-in is asked is a run for its subscriptions in which nobody acts. -/
theorem fanout_answer (m : StandIn) (o : Operation) (s : Subscription) :
    ∃ es, Spares s es ∧ (answer m o).2.fanout = m.fanout.run es := by
  cases o with
  | call method params token =>
    refine ⟨[], .nil, ?_⟩
    simp only [answer, StandIn.call]
    split <;> rfl
  | callAndWait method params token =>
    refine ⟨[], .nil, ?_⟩
    simp only [answer, StandIn.callAndWait]
    split <;> rfl
  | subscribe collection filter =>
    simp only [answer, StandIn.subscribe]
    split
    · exact ⟨[], .nil, rfl⟩
    · split
      · rename_i sub f hreg
        refine ⟨[.register collection m.capacity], .single (by simp), ?_⟩
        have hstep : (m.fanout.step (.register collection m.capacity)).1 = f := by
          simp only [Fanout.step]
          rw [show m.fanout.register collection m.capacity = .ok (sub, f) from hreg]
        exact hstep.symm
      · exact ⟨[], .nil, rfl⟩
  | close =>
    simp only [answer, StandIn.close]
    split
    · exact ⟨[], .nil, rfl⟩
    · exact ⟨[.closeAll], .single (by simp), rfl⟩

/-- A client does what a subscriber does only where the transport is told so. -/
theorem act_of_onLink {e : Gateway.Event} {d : Client.Event} {r : Subscription} {a : Fanout.Act}
    (hd : e.ofClient? = some d) (hon : d.onLink? = some (.subscriber r a)) :
    e = .act r a ∨ e = .client (.link (.subscriber r a)) := by
  have hlink : d = .link (.subscriber r a) := by
    cases d with
    | link le =>
      simp only [Client.Event.onLink?] at hon
      split at hon
      · rw [Option.some.inj hon]
      · cases hon
    | _ => cases hon
  subst hlink
  cases e with
  | act r' a' =>
    cases hd
    exact .inl rfl
  | client d =>
    cases hd
    exact .inr rfl
  | _ => cases hd

theorem step_client_spares (hc : c.Inv) (hl : c.link = some l) (hu : l.Unheld s)
    (hk : s.key ≤ l.fanout.lastKey) {d : Client.Event}
    (hact : ∀ r a, d.onLink? = some (.subscriber r a) → r.key = s.key → r = s ∧ a = .close) :
    ∃ es, Spares s es ∧ (Transport.client (c.step d)).fanout = l.fanout.run es ∧
      Serves s (.client (c.step d)) := by
  have hlink := (Client.step_connected hc hl d).1
  cases hon : d.onLink? with
  | none =>
    rw [hon] at hlink
    exact ⟨[], .nil, fanout_client hlink, .client (hc.step d) hlink hu hk⟩
  | some e =>
    rw [hon] at hlink hact
    have hown : ∀ r a, e = .subscriber r a → r.key = s.key → r = s ∧ a = .close :=
      fun r a he => hact r a (congrArg some he)
    obtain ⟨⟨es, hspares, hf⟩, hunheld⟩ := Link.step_spares hk hu hown
    refine ⟨es, hspares, (fanout_client hlink).trans hf, .client (hc.step d) hlink hunheld ?_⟩
    show s.key ≤ (l.step e).fanout.lastKey
    rw [hf]
    exact Nat.le_trans hk (Fanout.lastKey_le_run l.fanout es)

theorem step_standIn_spares {e : Gateway.Event} (he : e.Spares s) :
    ∃ es m', Spares s es ∧ (Transport.standIn m).step e = .standIn m' ∧
      m'.fanout = m.fanout.run es := by
  cases e with
  | connect task credentials =>
    refine ⟨[], _, .nil, rfl, ?_⟩
    unfold StandIn.connect
    split <;> rfl
  | start task o =>
    obtain ⟨es, hspares, hf⟩ := fanout_answer m o s
    exact ⟨es, _, hspares, rfl, hf⟩
  | act r a =>
    refine ⟨[.act r a], _, .single fun r' a' h => ?_, rfl, rfl⟩
    cases h
    exact he r a (.inl rfl)
  | push collection v => exact ⟨[.deliver collection v], _, .single (by simp), rfl, rfl⟩
  | client d => exact ⟨[], m, .nil, rfl, rfl⟩
  | file r => exact ⟨[], m, .nil, rfl, rfl⟩

/-- **Others spare a subscription** that somebody has got from the transport. -/
theorem Serves.step (h : Serves s t) {e : Gateway.Event} (he : e.Spares s) :
    ∃ es, Spares s es ∧ (t.step e).fanout = t.fanout.run es ∧ Serves s (t.step e) := by
  cases h with
  | @client c l hc hl hu hk =>
    rw [step_client, fanout_client hl]
    cases hd : e.ofClient? with
    | none => exact ⟨[], .nil, fanout_client hl, .client hc hl hu hk⟩
    | some d => exact step_client_spares hc hl hu hk fun r a hon => he r a (act_of_onLink hd hon)
  | @standIn m hk =>
    obtain ⟨es, m', hspares, hstep, hf⟩ := step_standIn_spares he
    rw [hstep]
    refine ⟨es, hspares, hf, .standIn ?_⟩
    rw [hf]
    exact Nat.le_trans hk (Fanout.lastKey_le_run m.fanout es)

theorem Serves.run (h : Serves s t) {events : List Gateway.Event} (he : ∀ e ∈ events, e.Spares s) :
    ∃ es, Spares s es ∧ (t.run events).fanout = t.fanout.run es ∧ Serves s (t.run events) := by
  induction events generalizing t with
  | nil => exact ⟨[], .nil, rfl, h⟩
  | cons e events ih =>
    obtain ⟨es, hspares, hf, hnext⟩ := h.step (he e List.mem_cons_self)
    obtain ⟨es', hspares', hf', hlast⟩ := ih hnext fun e' hm => he e' (List.mem_cons_of_mem e hm)
    refine ⟨es ++ es', hspares.append hspares', ?_, hlast⟩
    rw [Fanout.run_append, ← hf]
    exact hf'

/-! ## Subscriptions that are granted -/

/-- A stand-in serves a subscription from the start. -/
theorem serves_of_standIn (hi : m.fanout.Inv) (h : m.subscribe collection filter = (.ok s, m')) :
    Serves s (.standIn m') ∧ m'.fanout.Follows s { capacity := max m.capacity 1 } := by
  unfold StandIn.subscribe at h
  split at h
  · cases h
  · dsimp only at h
    split at h
    · rename_i sub f hreg
      obtain ⟨rfl, rfl⟩ := Prod.mk.inj h |>.imp_left Except.ok.inj
      have hf : f.Follows sub { capacity := max m.capacity 1 } := Fanout.follows_register hi hreg
      exact ⟨.standIn hf.key_le, hf⟩
    · cases h

end Transport

end ServerLink
