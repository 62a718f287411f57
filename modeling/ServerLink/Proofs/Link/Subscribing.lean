import ServerLink.Proofs.Link.Caught
import ServerLink.Proofs.Link.Mailboxes

/-!
# Tasks that subscribe

A task that subscribes opens its subscription, makes a call and waits for the answer. Its start has
one of two outcomes (`Started`), each turn of its own one of a few (`Subscribed`), and only an answer
of the server lets it succeed (`slot_answered`).
-/

namespace ServerLink.Link

open Fanout (Untouched)

/-- A task waits to learn whether the server accepts its subscription. -/
structure Subscribing (l : Link) (task : Nat) (s : Subscription) (x : Exchange) : Prop where
  waits : l.tasks.lookup task = some (.subscribe s x)
  untold : l.results.lookup task = none

/-- What has become of a call that is begun. -/
inductive Begun (l : Link) (kind : Call.Kind) : Link × Exchange.Progress → Prop
  | going {m : Link} {x : Exchange} (hid : x.id = l.calls.nextId) (hkind : x.kind = kind)
      (hf : m.fanout = l.fanout) (hs : m.slots = l.slots) (hr : m.results = l.results)
      (hopen : l.calls.closed = none) (hc : m.calls.closed = none) : Begun l kind (m, .going x)
  | failed {m : Link} {e : LinkError} (hf : m.fanout = l.fanout)
      (hc : m.calls.closed = l.calls.closed) : Begun l kind (m, .over (.error e))

/-- What has become of a call that goes on. -/
inductive Resumed (l : Link) (x : Exchange) : Link × Exchange.Progress → Prop
  | going {m : Link} {y : Exchange} (hid : y.id = x.id) (hkind : y.kind = x.kind)
      (hf : m.fanout = l.fanout) (hs : m.slots = l.slots) (hr : m.results = l.results)
      (hc : m.calls.closed = l.calls.closed) : Resumed l x (m, .going y)
  | answered {m : Link} {v : Json} (hs : l.slots.lookup x.id = some (.filled (.ok v)))
      (hf : m.fanout = l.fanout) (hc : m.calls.closed = l.calls.closed) :
      Resumed l x (m, .over (.ok v))
  | failed {m : Link} {e : LinkError} (hf : m.fanout = l.fanout)
      (hc : m.calls.closed = l.calls.closed) : Resumed l x (m, .over (.error e))
  /-- Its write has failed, which ends the connection. -/
  | unwritten {m : Link} {text : String} (hf : m.fanout = (l.teardown (.transport text)).fanout)
      (hc : m.calls.closed = (l.teardown (.transport text)).calls.closed) :
      Resumed l x (m, .over (.error (.transport text)))

/-- What has become of a task that subscribes, by a turn of its own. -/
inductive Subscribed (l : Link) (task : Nat) (s : Subscription) (x : Exchange) (m : Link) : Prop
  | going {y : Exchange} (hs : m.Subscribing task s y) (hid : y.id = x.id) (hkind : y.kind = x.kind)
      (hf : m.fanout = l.fanout) (hslots : m.slots = l.slots)
      (hc : m.calls.closed = l.calls.closed)
  | accepted {v : Json} (hv : acknowledges v = true)
      (hs : l.slots.lookup x.id = some (.filled (.ok v))) (ht : m.tasks.lookup task = none)
      (hr : m.results.lookup task = some (.ok (.subscription s))) (hf : m.fanout = l.fanout)
      (hc : m.calls.closed = l.calls.closed)
  | failed (ht : m.tasks.lookup task = none) (hr : ∀ r, m.results.lookup task ≠ some (.ok r))
      (hf : m.fanout = l.fanout.discard s) (hc : m.calls.closed = l.calls.closed)
  /-- The write of its request has failed, which ends the connection. -/
  | unwritten {text : String} (ht : m.tasks.lookup task = none)
      (hr : m.results.lookup task = some (.error (.transport text)))
      (hf : m.fanout = (l.teardown (.transport text)).fanout.discard s)
      (hc : m.calls.closed = (l.teardown (.transport text)).calls.closed)

/-- What has become of a task that starts to subscribe. -/
inductive Started (l : Link) (task : Nat) (s : Subscription) (m : Link) : Prop
  | going {x : Exchange} (hs : m.Subscribing task s x) (hid : x.id = l.calls.nextId)
      (hkind : x.kind = .plain) (hslots : m.slots = l.slots)
      (hlatest : m.Latest s (max l.settings.capacity 1) [])
      (hc : m.calls.closed = l.calls.closed)
  | failed (ht : m.tasks.lookup task = none) (hr : ∀ r, m.results.lookup task ≠ some (.ok r))
      (hlisted : ∀ c, s.key ∉ m.fanout.subscribers c)
      (hbox : m.fanout.mailboxes.lookup s.key = none) (hc : m.calls.closed = l.calls.closed)

variable {l m : Link} {a : Actor} {x y : Exchange} {s : Subscription} {task n : Nat}
  {e : Event} {v : Json} {vs : List Json}

theorem Subscribing.call (hs : l.Subscribing task s x) : l.callOf (.caller task) = some x := by
  rw [callOf, hs.waits]
  rfl

theorem Subscribing.inHand (hs : l.Subscribing task s x) :
    (l.hand (.caller task)).subscription = some s := by
  rw [hand_of_lookup hs.waits]
  rfl

theorem Subscribing.congr (hs : l.Subscribing task s x) (hp : SamePlace l m (.caller task)) :
    m.Subscribing task s x := ⟨hp.1.trans hs.waits, hp.2.trans hs.untold⟩

theorem accepts_of_acknowledges {v : Json} (hv : acknowledges v = true) :
    v = .bool true ∨ ∃ name, v = .string name ∧ name ≠ "" := by
  cases v with
  | bool b =>
    obtain rfl : b = true := hv
    exact .inl rfl
  | string name =>
    refine .inr ⟨name, rfl, ?_⟩
    rintro rfl
    cases hv
  | _ => cases hv

/-! ## A call -/

theorem begin_begun (l : Link) (a : Actor) (method : String) (params : Json) (kind : Call.Kind) :
    Begun l kind (l.begin a method params kind) := by
  unfold begin
  split
  · exact .failed rfl rfl
  · rename_i id calls hr
    simp only [register_eq_perform hr]
    obtain ⟨hopen, rfl, -⟩ := Calls.register_eq_ok hr
    have hclosed : (l.perform (.register kind)).calls.closed = l.calls.closed :=
      closed_perform l (.register kind)
    split
    · exact .failed rfl hclosed
    · unfold enter
      split
      · split
        · exact .going rfl rfl rfl rfl rfl hopen (hclosed.trans hopen)
        · exact .failed rfl hclosed
      · exact .going rfl rfl rfl rfl rfl hopen (hclosed.trans hopen)

theorem await_resumed (l : Link) (x : Exchange) (c : Cancellation) (w : Wakeup) :
    Resumed l x (l.await x c w) := by
  unfold await
  split
  · exact .failed rfl rfl
  · split
    · rename_i o ho
      cases o with
      | error e => exact .failed rfl rfl
      | ok v =>
        refine .answered ?_ rfl rfl
        unfold endOf? at ho
        obtain ⟨how, hs, he⟩ := Option.map_eq_some_iff.1 ho
        cases how with
        | filled o =>
          rw [hs]
          cases he
          rfl
        | abandoned => cases he
    · split
      · exact .failed rfl rfl
      · split
        · exact .failed rfl rfl
        · exact .going rfl rfl rfl rfl rfl rfl

theorem Resumed.ofLeaveLine {p : Link × Exchange.Progress} (stage : Exchange.Stage)
    (h : Resumed (l.leaveLine a) { x with stage } p) : Resumed l x p := by
  cases h with
  | going hid hkind hf hs hr hc => exact .going hid hkind hf hs hr hc
  | answered hs hf hc => exact .answered hs hf hc
  | failed hf hc => exact .failed hf hc
  | unwritten hf hc =>
    refine .unwritten (hf.trans ?_) (hc.trans ?_)
    · rw [fanout_teardown, fanout_teardown]
      rfl
    · rw [closed_teardown, closed_teardown]
      rfl

theorem failWrite_resumed (l : Link) (a : Actor) (x : Exchange) (text : String) :
    Resumed l x (l.failWrite a x text) :=
  .ofLeaveLine (a := a) x.stage (.unwritten rfl rfl)

theorem resume_resumed (l : Link) (a : Actor) (x : Exchange) (c : Cancellation) (w : Wakeup) :
    Resumed l x (l.resume a x c w) := by
  unfold resume
  split
  · unfold enter
    split
    · split
      · exact .going rfl rfl rfl rfl rfl rfl
      · exact .failed rfl rfl
    · exact .going rfl rfl rfl rfl rfl rfl
  · split
    · exact .ofLeaveLine .waiting
        (await_resumed (l.leaveLine a) { x with stage := .waiting } c .nothing)
    · exact failWrite_resumed l a x _
    · exact failWrite_resumed l a x _
    · exact .going rfl rfl rfl rfl rfl rfl
    · exact .going rfl rfl rfl rfl rfl rfl
  · exact await_resumed l x c w

/-! ## The task itself -/

theorem lookup_finish (l : Link) (task : Nat) (e : LinkError) :
    (l.finish task (.error e)).tasks.lookup task = none ∧
      ∀ r, (l.finish task (.error e)).results.lookup task ≠ some (.ok r) :=
  ⟨Table.lookup_erase_self, fun r hr => by cases Table.lookup_insert_self.symm.trans hr⟩

theorem Started.ofBegun (hr : l.results.lookup task = none) {g : Fanout}
    (hg : g.Follows s { capacity := max l.settings.capacity 1 }) {p : Link × Exchange.Progress}
    (hp : Begun { l with fanout := g } .plain p) :
    Started l task s (proceed task p (.subscribe s) (subscribeAnswered task s)) := by
  cases hp with
  | @going m x hid hkind hf hs hresults hopen hc =>
    refine .going ⟨Table.lookup_insert_self, ?_⟩ hid hkind hs ?_ (hc.trans hopen.symm)
    · exact (congrArg (List.lookup task) hresults).trans hr
    · show m.fanout.Follows s (.latest _ [] m.calls.closed.isSome)
      rw [hf, hc, Queue.latest_nil]
      exact hg
  | @failed m e hf hc =>
    obtain ⟨hlisted, hbox⟩ := hg.discard_gone
    obtain rfl : m.fanout = g := hf
    obtain ⟨ht, hr⟩ := lookup_finish { m with fanout := m.fanout.discard s } task e
    exact .failed ht hr hlisted hbox hc

/-- **The start of a task that subscribes.** -/
theorem start_started (hf : l.fanout.Inv) (hu : l.isUsed task = false) (c : String)
    (filter : Json) : Started l task ⟨c, l.fanout.lastKey + 1⟩
      (l.step (.start task (.subscribe c filter))) := by
  simp only [step, hu, Bool.false_eq_true, ↓reduceIte, startTask, startSubscribe]
  split
  · rename_i e _
    obtain ⟨ht, hr⟩ := lookup_finish l task e
    exact .failed ht hr hf.next_key_free.1 hf.next_key_free.2 rfl
  · rename_i s g hreg
    obtain ⟨-, rfl⟩ := Fanout.register_eq_ok hreg
    have hr : l.results.lookup task = none := by
      simp only [isUsed, Bool.or_eq_false_iff] at hu
      simpa using hu.2
    exact .ofBegun hr (Fanout.follows_register hf hreg) (begin_begun { l with fanout := g } _ _ _ _)

theorem Subscribed.refused (hf : m.fanout = l.fanout) (hc : m.calls.closed = l.calls.closed)
    (e : LinkError) : Subscribed l task s x
      (({ m with fanout := m.fanout.discard s }).finish task (.error e)) :=
  .failed Table.lookup_erase_self
    (fun r hr => by cases Table.lookup_insert_self.symm.trans hr)
    (congrArg (·.discard s) hf) hc

theorem Subscribed.ofResumed (hl : l.results.lookup task = none) {p : Link × Exchange.Progress}
    (hp : Resumed l x p) :
    Subscribed l task s x (proceed task p (.subscribe s) (subscribeAnswered task s)) := by
  cases hp with
  | going hid hkind hf hs hr hc =>
    refine .going ⟨Table.lookup_insert_self, ?_⟩ hid hkind hf hs hc
    exact (congrArg (List.lookup task) hr).trans hl
  | @answered m v hs hf hc =>
    show Subscribed l task s x (subscribeAnswered task s m (.ok v))
    by_cases hv : acknowledges v = true
    · simp only [subscribeAnswered, hv, ↓reduceIte]
      exact .accepted hv hs Table.lookup_erase_self Table.lookup_insert_self hf hc
    · simp only [subscribeAnswered, hv, ↓reduceIte, Bool.false_eq_true]
      exact .refused hf hc _
  | failed hf hc => exact .refused hf hc _
  | unwritten hf hc =>
    exact .unwritten Table.lookup_erase_self Table.lookup_insert_self
      (congrArg (·.discard s) hf) hc

/-- **A turn of a task that subscribes.** -/
theorem Subscribing.own_turn (hs : l.Subscribing task s x)
    (ha : e.actor? = some (.caller task)) : Subscribed l task s x (l.step e) := by
  have hused : l.isUsed task = true := by simp [isUsed, hs.waits]
  have hsame : l.step e = l → Subscribed l task s x (l.step e) := fun he =>
    .going (he.symm ▸ hs) rfl rfl (by rw [he]) (by rw [he]) (by rw [he])
  cases e with
  | start n o =>
    cases ha
    exact hsame (by simp only [step, hused, ↓reduceIte])
  | handshake n c =>
    cases ha
    exact hsame (by simp only [step, hused, ↓reduceIte])
  | resume n w eager =>
    cases ha
    simp only [step, hs.waits, resumeTask]
    exact .ofResumed hs.untold (resume_resumed l _ x .no w)
  | drop n =>
    cases ha
    simp only [step, hs.waits, dropTask]
    refine .failed Table.lookup_erase_self (fun r hr => ?_) rfl rfl
    have hr : l.results.lookup task = some (.ok r) := hr
    rw [hs.untold] at hr
    cases hr
  | receive i => cases i <;> cases ha
  | _ => cases ha

/-- A turn of the task touches no other subscription, unless its write has failed and ends the
connection. -/
theorem Subscribing.siblings (hs : l.Subscribing task s x)
    (ha : e.actor? = some (.caller task)) :
    ((l.step e).calls.closed = l.calls.closed ∧
      ∀ k ≤ l.fanout.lastKey, k ≠ s.key → Untouched l.fanout (l.step e).fanout k) ∨
    ∃ text, (l.step e).calls.closed = some (.transport text) ∧
      (l.step e).results.lookup task = some (.error (.transport text)) := by
  have hkept : (l.step e).calls.closed = l.calls.closed →
      (l.step e).calls.closed = l.calls.closed ∧
        ∀ k ≤ l.fanout.lastKey, k ≠ s.key → Untouched l.fanout (l.step e).fanout k := by
    refine fun hc => ⟨hc, fun k hk hne => Deeds.untouched (step_turn ha) hc hk fun t ht => ?_⟩
    cases hs.inHand.symm.trans ht
    exact Ne.symm hne
  cases hs.own_turn ha with
  | going _ _ _ _ _ hc | accepted _ _ _ _ _ hc | failed _ _ _ hc => exact .inl (hkept hc)
  | @unwritten text _ hr _ hc =>
    rw [closed_teardown] at hc
    cases hopen : l.calls.closed with
    | some why =>
      rw [hopen] at hc
      exact .inl (by rw [← hopen]; exact hkept (hc.trans hopen.symm))
    | none =>
      rw [hopen] at hc
      exact .inr ⟨text, hc, hr⟩

/-! ## The answer -/

/-- What the server brings fills the slot of a plain call only by an answer to it. -/
theorem answer_of_filled (hl : l.Tidy) (hx : l.callOf a = some x) (hk : x.kind = .plain) {op : Op}
    (hop : op.isInbound = true) {o : Outcome} (hf : .filled o ∈ endsOf x.id (l.ends op)) :
    ∃ r, op = .answer r ∧ r.id = x.id ∧ o = r.outcome.mapError .rpc := by
  have hcall : (l.hand a).call = some (x.id, .plain) := hk ▸ call_of_callOf hx
  -- what starts a job or ends one is about a job call, and the tables know this one as plain
  cases op with
  | answer r =>
    obtain ⟨hid, -⟩ := not_displaces_of_filled hl.owned.calls hf x.id
    refine ⟨r, rfl, hid.symm, ?_⟩
    rw [ends] at hf
    rcases Calls.step_answer l.calls r with ⟨-, hs⟩ | ⟨kind, hp, -, hs⟩ | ⟨job, ⟨hp, -⟩, -⟩
    · rw [hs] at hf
      cases hf
    · obtain rfl := hl.owned.pending a x.id .plain kind hcall (hid ▸ hp)
      rw [hs, endsOf_filled, if_pos hid.symm, Calls.direct_plain, List.mem_singleton] at hf
      cases hf
      rfl
    · cases hl.owned.pending a x.id .plain .job hcall (hid ▸ hp)
  | report r =>
    rw [ends] at hf
    rcases Calls.step_report l.calls r with ⟨-, hs⟩ | ⟨-, call, hw, hs⟩ | ⟨-, -, hs⟩ <;>
      rw [hs] at hf
    · cases hf
    · obtain rfl : call = x.id := by
        rw [endsOf_filled] at hf
        split at hf
        · assumption
        · cases hf
      cases hl.owned.waiting a x.id .plain hcall
        (Table.mem_values.2 ⟨r.id, Table.mem_of_lookup hw⟩)
    · cases hf
  | deliver _ _ => cases hf
  | register _ | cancel _ | teardown _ | subscribe _ _ | remove _ | act _ _ => cases hop

/-- Only its answer gives a plain call that is in hand a value. -/
theorem slot_answered (hl : l.Tidy) (hx : l.callOf a = some x) (hk : x.kind = .plain)
    (hs : (l.step e).slots.lookup x.id = some (.filled (.ok v))) :
    l.slots.lookup x.id = some (.filled (.ok v)) ∨
      ∃ r, l.dispatched? e = some (.answer r) ∧ r.id = x.id ∧ r.outcome = .ok v := by
  have hold : ∀ {m : Link}, (l.slots.lookup x.id = some (.filled (.ok v)) ∨
      ∃ reason, m.calls.closed = some reason ∧
        Slot.End.filled (.ok v) = .filled (.error reason)) →
      l.slots.lookup x.id = some (.filled (.ok v)) := by
    rintro m (hs | ⟨reason, -, he⟩)
    · exact hs
    · cases he
  cases ha : e.actor? with
  | some b => exact .inl (hold (Deeds.slot_of_end (step_turn ha) hs))
  | none =>
    cases e with
    | fire _ | subscriber _ _ => exact .inl hs
    | teardown reason => exact .inl (hold (slot_of_teardown hs))
    | receive i =>
      rw [step_dispatched ha] at hs
      cases hd : l.dispatched? (.receive i) with
      | none =>
        rw [hd] at hs
        exact .inl hs
      | some op =>
        obtain ⟨text, ho⟩ := dispatched?_text hd
        have hop := Op.isInbound_of_text ho
        simp only [hd, Option.map_some, Option.getD_some] at hs
        rw [slots_perform, if_neg (by rintro rfl; cases hop)] at hs
        rcases Option.or_eq_some_iff.1 hs with hnew | ⟨-, hs⟩
        · obtain ⟨r, rfl, hid, hr⟩ :=
            answer_of_filled hl hx hk hop (List.mem_of_getLast? hnew)
          refine .inr ⟨r, rfl, hid, ?_⟩
          cases ho : r.outcome with
          | error e => rw [ho] at hr; cases hr
          | ok w => rw [ho] at hr; cases hr; rfl
        · exact .inl hs
    | _ => cases ha

end ServerLink.Link
