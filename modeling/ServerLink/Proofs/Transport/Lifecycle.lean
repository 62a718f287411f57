import ServerLink.Proofs.Client.Rounds
import ServerLink.Transport

/-!
# Transports with one caller

A stand-in takes what is misplaced as a client does, and tells its version when a client does. The
one exception is a close that comes before the first connect (`misuses_agree_unless_closed_first`):
a client has nothing to close then, but a stand-in is closed for good
(`stand_in_closes_before_it_connects`).
-/

namespace ServerLink

namespace Use

/-- Something is asked that a server would answer. -/
def isRequest (u : Use) : Bool := !u.isConnect && !u.isClose

/-- All closes among these uses came before the first connect, and there was one. -/
def closesFirst (uses : List Use) : Bool := uses.any isClose && !closes uses

/-- How a use of a stand-in fails after these, if it is misplaced. -/
def standInMisuse? (uses : List Use) (u : Use) : Option Misuse :=
  if u.isClose then none
  else if u.isConnect then if connects uses then some .alreadyConnected else none
  else if uses.any isClose then some .closed
  else if !connects uses then some .notConnected
  else none

end Use

namespace Transport

/-- What a use of a transport gives at once, if anything, and the transport then. -/
def use (t : Transport) (task : Nat) : Use → Option Result × Transport
  | .connect credentials => t.connect task credentials
  | .ask o => t.start task o

/-- Something happens to a client. -/
def goOn (t : Transport) (e : Client.Event) : Transport :=
  match t with
  | .client c => .client (c.step e)
  | .files | .refusing | .standIn _ => t

def round (t : Transport) (r : Round) : Transport := r.meanwhile.foldl goOn (t.use r.task r.use).2

/-- What a use comes to, at once or in the end. -/
def answer? (t : Transport) (r : Round) : Option Result :=
  (t.use r.task r.use).1.or ((t.round r).result? r.task)

def after (t : Transport) (rounds : List Round) : Transport := rounds.foldl round t

end Transport

/-- Each round is fair to a client with these settings. -/
def Client.FairRounds (settings : Settings) (rounds : List Round) : Prop :=
  ∀ before r after, rounds = before ++ r :: after →
    r.Fair ((ofSettings settings).run (before.flatMap Round.events))

/-- A stand-in that has been made, and not yet used. -/
inductive StandIn.Prepared : StandIn → Prop
  | new (version : Version) (capacity : Nat) : Prepared { version, capacity }
  | withReply {s : StandIn} (h : Prepared s) (method : String) (result : Json) :
      Prepared (s.withReply method result)
  | withError {s : StandIn} (h : Prepared s) (method : String) (e : RpcError) :
      Prepared (s.withError method e)
  | withJob {s : StandIn} (h : Prepared s) (method : String) (result : Json) :
      Prepared (s.withJob method result)
  | withFailedJob {s : StandIn} (h : Prepared s) (method : String) (state : Job.State)
      (message : String) : Prepared (s.withFailedJob method state message)

/-- A stand-in after these uses. -/
structure StandIn.Used (s : StandIn) (uses : List Use) : Prop where
  connected : s.connected = Use.connects uses
  closed : s.closed = uses.any Use.isClose
  fanout : s.fanout.closed = s.closed
  replies : ∀ method o, s.replies.lookup method = some o → Misuse.of? (o.map .value) = none
  jobs : ∀ method o, s.jobs.lookup method = some o → Misuse.of? (o.map .value) = none

variable {c : Client} {s : StandIn} {r : Round} {uses : List Use} {u : Use} {rounds : List Round}

/-! ## Clients and stand-ins among transports -/

namespace Transport

theorem round_client (c : Client) (r : Round) :
    (Transport.client c).round r = .client (c.run r.events) := by
  have hgo : ∀ (events : List Client.Event) (c : Client),
      events.foldl goOn (.client c) = .client (c.run events) := by
    intro events
    induction events with
    | nil => exact fun c => rfl
    | cons e events ih => exact fun c => ih (c.step e)
  obtain ⟨task, u, meanwhile⟩ := r
  cases u <;> exact hgo meanwhile _

theorem answer?_client (c : Client) (r : Round) : (Transport.client c).answer? r = c.answer? r := by
  rw [answer?, round_client]
  obtain ⟨task, u, meanwhile⟩ := r
  cases u <;> rfl

theorem after_client (c : Client) (rounds : List Round) :
    (Transport.client c).after rounds = .client (c.run (rounds.flatMap Round.events)) := by
  induction rounds generalizing c with
  | nil => rfl
  | cons r rounds ih =>
    show ((Transport.client c).round r).after rounds = _
    rw [round_client, ih, List.flatMap_cons, Client.run_append]

/-- A stand-in has answered at once. -/
theorem use_standIn (s : StandIn) (task : Nat) (u : Use) : ∃ a m,
    (Transport.standIn s).use task u = (some a, .standIn m) := by
  cases u <;> exact ⟨_, _, rfl⟩

theorem round_standIn (s : StandIn) (r : Round) :
    (Transport.standIn s).round r = ((Transport.standIn s).use r.task r.use).2 := by
  obtain ⟨a, m, hu⟩ := use_standIn s r.task r.use
  have hgo : ∀ events : List Client.Event, events.foldl goOn (.standIn m) = .standIn m := by
    intro events
    induction events with
    | nil => rfl
    | cons e events ih => exact ih
  rw [round, hu]
  exact hgo r.meanwhile

theorem after_concat (t : Transport) (rounds : List Round) (r : Round) :
    t.after (rounds ++ [r]) = (t.after rounds).round r := by
  simp [after, List.foldl_append]

end Transport

/-! ## Stand-ins -/

namespace StandIn

theorem Prepared.used (h : s.Prepared) : s.Used [] := by
  have hinsert : ∀ {t : Table String Outcome} {method : String} {o : Outcome},
      (∀ n x, t.lookup n = some x → Misuse.of? (x.map .value) = none) →
      Misuse.of? (o.map .value) = none → ∀ n x, (Table.insert t method o).lookup n = some x →
      Misuse.of? (x.map .value) = none := by
    intro t method o ht ho n x hx
    by_cases hn : n = method
    · subst hn
      rw [Table.lookup_insert_self] at hx
      cases hx
      exact ho
    · rw [Table.lookup_insert_ne hn] at hx
      exact ht n x hx
  induction h with
  | new version capacity => exact ⟨rfl, rfl, rfl, by rintro _ _ ⟨⟩, by rintro _ _ ⟨⟩⟩
  | withReply _ method result ih | withError _ method e ih =>
    exact ⟨ih.connected, ih.closed, ih.fanout, hinsert ih.replies rfl, ih.jobs⟩
  | withJob _ method result ih | withFailedJob _ method state message ih =>
    exact ⟨ih.connected, ih.closed, ih.fanout, ih.replies, hinsert ih.jobs rfl⟩

/-- What is answered from a table is not misplaced. -/
theorem misuse?_answerFrom {table : Table String Outcome}
    (h : ∀ method o, table.lookup method = some o → Misuse.of? (o.map .value) = none)
    (method : String) : Misuse.of? ((answerFrom table method).map .value) = none := by
  rw [answerFrom]
  cases ho : table.lookup method with
  | none => rfl
  | some o => exact h method o ho

namespace Used

/-- A stand-in that is asked for something is as it was, except for what it keeps note of. -/
theorem ask (h : s.Used uses) {o : Operation} (ho : o ≠ .close) {m : StandIn}
    (hc : m.connected = s.connected ∧ m.closed = s.closed) (hf : m.fanout.closed = s.fanout.closed)
    (ht : m.replies = s.replies ∧ m.jobs = s.jobs) : m.Used (uses ++ [.ask o]) := by
  have hclose : (Use.ask o).isClose = false := by
    cases o <;> first | rfl | exact absurd rfl ho
  refine ⟨?_, ?_, ?_, ?_, ?_⟩
  · rw [hc.1, h.connected, Client.connects_concat]
    exact (Bool.or_false _).symm
  · rw [hc.2, h.closed]
    simp [hclose]
  · rw [hf, h.fanout, hc.2]
  · rw [ht.1]
    exact h.replies
  · rw [ht.2]
    exact h.jobs

/-- Whether a stand-in can be asked for something. -/
theorem ready (h : s.Used uses) {o : Operation} (ho : o ≠ .close) :
    (∃ e, s.ready = .error e ∧ Misuse.of? (.error e) = Use.standInMisuse? uses (.ask o)) ∨
      s.ready = .ok () ∧ s.closed = false ∧ Use.standInMisuse? uses (.ask o) = none := by
  have hclose : (Use.ask o).isClose = false := by
    cases o <;> first | rfl | exact absurd rfl ho
  simp only [StandIn.ready, Use.standInMisuse?, hclose, h.closed, h.connected, Use.isConnect,
    Bool.false_eq_true, ↓reduceIte]
  split
  · exact .inl ⟨_, rfl, rfl⟩
  · split
    · exact .inl ⟨_, rfl, rfl⟩
    · rename_i hno _
      exact .inr ⟨rfl, by simpa using hno, rfl⟩

theorem connect (h : s.Used uses) (credentials : Except SettingsError Credentials) :
    s.connect.2.Used (uses ++ [.connect credentials]) := by
  have hsame : s.connect.2 = { s with connected := true } := by
    unfold StandIn.connect
    split
    · rename_i hs
      rw [← hs]
    · rfl
  rw [hsame]
  refine ⟨?_, ?_, h.fanout, h.replies, h.jobs⟩
  · rw [Client.connects_concat]
    exact (Bool.or_true _).symm
  · simpa [Use.isClose] using h.closed

theorem close (h : s.Used uses) : s.close.Used (uses ++ [.ask .close]) := by
  have hconnected : s.connected = Use.connects (uses ++ [.ask .close]) := by
    rw [Client.connects_concat]
    exact h.connected.trans (Bool.or_false _).symm
  have hclosed : true = (uses ++ [Use.ask .close]).any Use.isClose := by
    rw [List.any_append]
    exact (Bool.or_true _).symm
  unfold StandIn.close
  split
  · rename_i hs
    exact ⟨hconnected, hs.trans hclosed, h.fanout, h.replies, h.jobs⟩
  · exact ⟨hconnected, hclosed, Fanout.closed_step s.fanout .closeAll, h.replies, h.jobs⟩

/-- What a stand-in answers when it is asked for something. -/
theorem answer (h : s.Used uses) {o : Operation} (ho : o ≠ .close) :
    (Transport.answer s o).2.Used (uses ++ [.ask o]) ∧
      Misuse.of? (Transport.answer s o).1 = Use.standInMisuse? uses (.ask o) := by
  rcases h.ready ho with ⟨e, hready, hmisuse⟩ | ⟨hready, hopen, hmisuse⟩
  · have hsame := h.ask ho (m := s) ⟨rfl, rfl⟩ rfl ⟨rfl, rfl⟩
    cases o with
    | call method params token | callAndWait method params token | subscribe collection filter =>
      simp only [Transport.answer, call, callAndWait, subscribe, hready]
      exact ⟨hsame, hmisuse⟩
    | close => exact absurd rfl ho
  · cases o with
    | call method params token =>
      simp only [Transport.answer, call, hready]
      exact ⟨h.ask ho ⟨rfl, rfl⟩ rfl ⟨rfl, rfl⟩,
        (misuse?_answerFrom h.replies method).trans hmisuse.symm⟩
    | callAndWait method params token =>
      simp only [Transport.answer, callAndWait, hready]
      exact ⟨h.ask ho ⟨rfl, rfl⟩ rfl ⟨rfl, rfl⟩,
        (misuse?_answerFrom h.jobs method).trans hmisuse.symm⟩
    | subscribe collection filter =>
      have hregister := Fanout.register_open (h.fanout.trans hopen) collection s.capacity
      have hnoted : (s.note Method.subscribe filter).fanout.register collection
          (s.note Method.subscribe filter).capacity = s.fanout.register collection s.capacity := rfl
      simp only [Transport.answer, subscribe, hready, hnoted, hregister]
      exact ⟨h.ask ho ⟨rfl, rfl⟩ rfl ⟨rfl, rfl⟩, hmisuse.symm⟩
    | close => exact absurd rfl ho

/-- **One use of a stand-in.** -/
theorem round (h : s.Used uses) (task : Nat) (u : Use) : ∃ a m,
    (Transport.standIn s).use task u = (some a, .standIn m) ∧ m.Used (uses ++ [u]) ∧
      Misuse.of? a = Use.standInMisuse? uses u := by
  cases u with
  | connect credentials =>
    refine ⟨_, _, rfl, h.connect credentials, ?_⟩
    simp only [StandIn.connect, Use.standInMisuse?, h.connected, Use.isClose, Use.isConnect,
      Bool.false_eq_true, ↓reduceIte]
    split <;> rfl
  | ask o =>
    by_cases ho : o = .close
    · subst ho
      exact ⟨_, _, rfl, h.close, rfl⟩
    · exact ⟨_, _, rfl, h.answer ho⟩

end Used

end StandIn

/-! ## Client and stand-in -/

theorem Use.closes_imp_close {uses : List Use} (h : closes uses = true) :
    uses.any isClose = true := by
  obtain ⟨u, hu, hclose⟩ := List.any_eq_true.1 h
  exact List.any_eq_true.2 ⟨u, List.dropWhile_subset _ hu, hclose⟩

/-- A stand-in takes a use as a client does, unless it was closed first. -/
theorem Use.misuses_agree (uses : List Use) (u : Use) : misuse? uses u = standInMisuse? uses u ↔
    ¬ (closesFirst uses = true ∧ u.isRequest = true) := by
  have hconnects : closes uses = true → connects uses = true := Client.connects_of_closes
  have hclose : closes uses = true → uses.any isClose = true := closes_imp_close
  unfold misuse? standInMisuse? closesFirst isRequest
  cases u.isClose <;> cases u.isConnect <;> cases hcl : closes uses <;>
    cases hany : uses.any isClose <;> cases hcon : connects uses <;> simp_all

/-- A client and a stand-in after the same rounds. -/
structure Alike (c : Client) (s : StandIn) (uses : List Use) : Prop where
  client : c.AtRest uses
  standIn : s.Used uses

theorem Alike.version (h : Alike c s uses) : (Transport.client c).version?.isSome =
    (Transport.standIn s).version?.isSome := by
  show c.version.isSome = s.version?.isSome
  rw [h.client.reachable.sane.version, h.client.link, StandIn.version?, h.standIn.connected]
  cases Use.connects uses <;> rfl

/-- Client and stand-in stay alike. -/
theorem Alike.after {settings : Settings} (hs : s.Prepared)
    (hf : Client.FairRounds settings rounds) : ∃ m,
    (Transport.standIn s).after rounds = .standIn m ∧
      Alike ((Client.ofSettings settings).run (rounds.flatMap Round.events)) m
        (rounds.map (·.use)) := by
  induction rounds using List.reverseRecOn with
  | nil => exact ⟨s, rfl, .ofSettings settings, hs.used⟩
  | append_singleton rounds r ih =>
    obtain ⟨m, hm, hclient, hstandIn⟩ := ih fun before r' after he =>
      hf before r' (after ++ [r]) (by rw [he]; simp)
    obtain ⟨a, n, hn, hused, -⟩ := hstandIn.round r.task r.use
    refine ⟨n, ?_, ?_, ?_⟩
    · rw [Transport.after_concat, hm, Transport.round_standIn, hn]
    · rw [List.flatMap_append, Client.run_append, List.map_append]
      have hround := (hclient.round (hf rounds r [] rfl)).1
      simpa using hround
    · rw [List.map_append]
      exact hused

/-- **A stand-in takes what is misplaced as a client does.** One caller uses a client and a stand-in
alike, and the client's server lets it in and does not leave. Then the two tell a version at the same
points; and whatever the caller uses them for fails for being misplaced in the same way, if at all,
unless it is asked of the server, and all closes before it, one or more, came before the first
connect. -/
theorem misuses_agree_unless_closed_first {settings : Settings} (hs : s.Prepared)
    (hf : Client.FairRounds settings rounds) :
    (∀ before after, rounds = before ++ after →
      ((Transport.client (.ofSettings settings)).after before).version?.isSome =
        ((Transport.standIn s).after before).version?.isSome) ∧
    ∀ before r after, rounds = before ++ r :: after → ∃ a b,
      ((Transport.client (.ofSettings settings)).after before).answer? r = some a ∧
      ((Transport.standIn s).after before).answer? r = some b ∧
      (Misuse.of? a = Misuse.of? b ↔
        ¬ (Use.closesFirst (before.map (·.use)) = true ∧ r.use.isRequest = true)) := by
  have halike : ∀ before after, rounds = before ++ after → ∃ m,
      (Transport.standIn s).after before = .standIn m ∧
        Alike ((Client.ofSettings settings).run (before.flatMap Round.events)) m
          (before.map (·.use)) := by
    intro before after he
    refine Alike.after hs fun first r rest hfirst => hf first r (rest ++ after) ?_
    rw [he, hfirst, List.append_assoc, List.cons_append]
  refine ⟨fun before after he => ?_, fun before r after he => ?_⟩
  · obtain ⟨m, hm, hboth⟩ := halike before after he
    rw [Transport.after_client, hm]
    exact hboth.version
  · obtain ⟨m, hm, hclient, hstandIn⟩ := halike before (r :: after) he
    obtain ⟨-, a, ha, hmisuse⟩ := hclient.round (hf before r after he)
    obtain ⟨b, n, hn, -, hmisuse'⟩ := hstandIn.round r.task r.use
    refine ⟨a, b, ?_, ?_, ?_⟩
    · rw [Transport.after_client, Transport.answer?_client]
      exact ha
    · rw [hm, Transport.answer?, hn]
      rfl
    · rw [hmisuse, hmisuse']
      exact Use.misuses_agree _ _

section

variable {settings : Settings} {q : Round}

/-- What has to be seen of two rounds. -/
theorem Client.fairRounds_pair (hr : r.Fair (ofSettings settings))
    (hq : q.Fair ((ofSettings settings).run r.events)) : FairRounds settings [r, q] := by
  intro before round after he
  rcases before with _ | ⟨first, _ | ⟨second, before⟩⟩
  · cases he
    exact hr
  · cases he
    simpa using hq
  · simp at he

end

/-- A visitor connects. -/
def arrival : Round :=
  ⟨1, .connect (.ok Client.visitor), .opened .opened :: Client.exchange Client.granted ++
    Client.exchange Client.dated⟩

/-- A visitor tries to connect again. -/
def again : Round := ⟨2, .connect (.ok Client.visitor), []⟩

theorem arrival_fair : arrival.Fair (.ofSettings Client.named) ∧
    again.Fair ((Client.ofSettings Client.named).run arrival.events) := by
  obtain ⟨text, hrun⟩ := Client.run_arrival
  have hrun : (Client.ofSettings Client.named).run arrival.events = _ := hrun
  have hfirst : ((Client.ofSettings Client.named).step
      (arrival.use.event arrival.task)).result? arrival.task = none :=
    (congrArg (·.result? 1) Client.step_connect_visitor).trans rfl
  have hanswer : (Client.ofSettings Client.named).answer? arrival = some (.ok .done) := by
    rw [Client.answer?, hrun, hfirst]
    rfl
  refine ⟨⟨⟨rfl, by rintro _ ⟨⟩⟩, by decide, by rw [hanswer]; rfl, fun _ _ => hanswer,
    fun _ _ => ?_⟩, ?_⟩
  · rw [hrun]
    cbv
  · rw [hrun]
    refine ⟨⟨by cbv, fun l hl => ?_⟩, by simp [again], rfl, by rintro - ⟨⟩, fun _ hc => hc⟩
    rw [← Option.some.inj (show some _ = some l from hl)]
    cbv

theorem both_refuse_to_connect_again : StandIn.Prepared {} ∧
    Client.FairRounds Client.named [arrival, again] ∧ ∃ a b,
      ((Transport.client (.ofSettings Client.named)).after [arrival]).answer? again = some a ∧
      ((Transport.standIn {}).after [arrival]).answer? again = some b ∧
      Misuse.of? a = Misuse.of? b := by
  have hs : StandIn.Prepared {} := .new ⟨25, 4⟩ 64
  have hf : Client.FairRounds Client.named [arrival, again] :=
    Client.fairRounds_pair arrival_fair.1 arrival_fair.2
  obtain ⟨a, b, ha, hb, hiff⟩ :=
    (misuses_agree_unless_closed_first hs hf).2 [arrival] again [] rfl
  exact ⟨hs, hf, a, b, ha, hb, hiff.2 fun hearly => by cases hearly.2⟩

/-- A close that has nothing to close. -/
def early : Round := ⟨1, .ask .close, []⟩

def request : Round := ⟨2, .ask (.call "m" .null none), []⟩

/-- A stand-in that was closed before it was connected takes a call for one that comes after the
close, where a client is not connected. -/
theorem stand_in_closes_before_it_connects :
    ((Transport.client (.ofSettings Client.named)).after [early]).answer? request =
      some (.error .notConnected) ∧
    ((Transport.standIn {}).after [early]).answer? request =
      some (.error (.closed "client closed")) ∧
    ¬ ∀ settings s rounds, StandIn.Prepared s → Client.FairRounds settings rounds →
      ∀ before r after, rounds = before ++ r :: after → ∃ a b,
        ((Transport.client (.ofSettings settings)).after before).answer? r = some a ∧
        ((Transport.standIn s).after before).answer? r = some b ∧
        Misuse.of? a = Misuse.of? b := by
  have hclient : ((Transport.client (.ofSettings Client.named)).after [early]).answer? request =
      some (.error .notConnected) := rfl
  have hstandIn : ((Transport.standIn {}).after [early]).answer? request =
      some (.error (.closed "client closed")) := rfl
  refine ⟨hclient, hstandIn, fun hall => ?_⟩
  have hf : Client.FairRounds Client.named [early, request] := by
    refine Client.fairRounds_pair ?_ ?_
    · exact ⟨⟨rfl, by rintro _ ⟨⟩⟩, by simp [early], rfl, by rintro ⟨⟩, by rintro ⟨⟩⟩
    · exact ⟨⟨rfl, by rintro _ ⟨⟩⟩, by simp [request], rfl, by rintro ⟨⟩, fun _ _ => rfl⟩
  obtain ⟨a, b, ha, hb, hsame⟩ := hall Client.named {} _ (.new ⟨25, 4⟩ 64) hf [early] request [] rfl
  cases hclient.symm.trans ha
  cases hstandIn.symm.trans hb
  cases hsame

end ServerLink
