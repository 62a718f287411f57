import ServerLink.Proofs.Link.Ownership
import ServerLink.Proofs.Subscription.Product

/-!
# Mailboxes on a connection

A turn touches no subscription but the one that the actor has in hand, unless it ends the connection
(`Deeds.untouched`). So a subscription of which nobody else has the handle shows the latest changes
of its collection that the connection dispatches while it is open (`Latest`, `latest_event`).
-/

namespace ServerLink

/-- A queue that has been fed these values, and not been read. -/
def Queue.latest (capacity : Nat) (vs : List Json) (closed : Bool) : Queue :=
  { capacity, values := vs.drop (vs.length - capacity), dropped := vs.length - capacity, closed }

theorem Queue.latest_nil (capacity : Nat) (closed : Bool) :
    latest capacity [] closed = { capacity, closed } := by
  simp [latest]

theorem Queue.latest_feed (capacity : Nat) (vs : List Json) (v : Json) (closed : Bool) :
    (latest capacity vs closed).feed v = latest capacity (vs ++ [v]) closed := by
  have hdropped : vs.length - capacity +
      ((vs.drop (vs.length - capacity) ++ [v]).length - capacity) =
      (vs ++ [v]).length - capacity := by
    simp only [List.length_append, List.length_drop, List.length_singleton]
    omega
  have hvalues : (vs.drop (vs.length - capacity) ++ [v]).drop
      ((vs.drop (vs.length - capacity) ++ [v]).length - capacity) =
      (vs ++ [v]).drop ((vs ++ [v]).length - capacity) := by
    rw [← List.drop_append_of_le_length (Nat.sub_le _ _), List.drop_drop]
    congr 1
    simp only [List.length_append, List.length_drop, List.length_singleton]
    omega
  simp only [feed, latest, hdropped, hvalues]

namespace Fanout

/-- Nothing has changed about the subscription with this key. -/
structure Untouched (f g : Fanout) (k : Nat) : Prop where
  box : g.mailboxes.lookup k = f.mailboxes.lookup k
  listed : ∀ c, k ∈ g.subscribers c ↔ k ∈ f.subscribers c

variable {f g : Fanout} {s : Subscription} {q : Queue} {k : Nat}

theorem Untouched.refl (f : Fanout) (k : Nat) : Untouched f f k := ⟨rfl, fun _ => .rfl⟩

theorem Untouched.trans {h : Fanout} (hf : Untouched f g k) (hg : Untouched g h k) :
    Untouched f h k :=
  ⟨hg.box.trans hf.box, fun c => (hg.listed c).trans (hf.listed c)⟩

/-- A registration touches no subscription that there is. -/
theorem untouched_register (hk : k ≤ f.lastKey) (collection : String) (capacity : Nat) :
    Untouched f (f.step (.register collection capacity)).1 k := by
  have hne : k ≠ f.lastKey + 1 := by omega
  refine ⟨?_, fun c => ?_⟩
  · cases hc : f.closed with
    | true => simp only [step, register_closed hc]
    | false =>
      simp only [step, register_open hc, List.lookup_append, List.lookup_cons,
        beq_eq_false_iff_ne.2 hne, List.lookup_nil, Option.or_none]
  · rw [subscribers_step]
    have hnew : k ∉ f.opens c (.register collection capacity) := by
      simp only [opens]
      split
      · simpa using hne
      · simp
    simp [Event.ends, hnew]

/-- To discard a subscription touches no other. -/
theorem untouched_discard (hk : s.key ≠ k) : Untouched f (f.discard s) k := by
  refine ⟨?_, fun c => ?_⟩
  · refine (Table.lookup_erase_ne (Ne.symm hk)).trans ((lookup_remove_eq f s k).trans ?_)
    have hno : ¬ (s.key ∈ f.subscribers s.collection ∧ k = s.key) := fun hs => hk hs.2.symm
    simp [hno]
  · show k ∈ (f.remove s).1.subscribers c ↔ _
    rw [subscribers_remove, List.mem_filter]
    have hne : s ≠ ⟨c, k⟩ := fun he => hk (by rw [he])
    simp [hne]

theorem Follows.untouched (h : f.Follows s q) (hg : g.Inv) (hu : Untouched f g s.key) :
    g.Follows s q := by
  refine ⟨hg, ?_, h.listed.trans (hu.listed s.collection).symm⟩
  rw [mailbox?, hu.box]
  exact h.box

/-- A subscription that is discarded is gone. -/
theorem Follows.discard_gone (h : f.Follows s q) : (∀ c, s.key ∉ (f.discard s).subscribers c) ∧
    (f.discard s).mailboxes.lookup s.key = none := by
  refine ⟨fun c hm => ?_, Table.lookup_erase_self⟩
  have hm : s.key ∈ (f.remove s).1.subscribers c := hm
  rw [subscribers_remove, List.mem_filter] at hm
  obtain ⟨hin, hne⟩ := hm
  obtain ⟨-, rfl⟩ := h.mem_subscribers.1 hin
  simp at hne

/-- The next key is in no use. -/
theorem Inv.next_key_free (h : f.Inv) : (∀ c, f.lastKey + 1 ∉ f.subscribers c) ∧
    f.mailboxes.lookup (f.lastKey + 1) = none := by
  refine ⟨fun c hm => ?_, Table.lookup_eq_none.2 fun hm => ?_⟩
  · exact Nat.not_succ_le_self _ (h.issued _ (mem_openKeys hm))
  · exact Nat.not_succ_le_self _ (h.stored _ hm)

end Fanout

namespace Link

open Fanout (Untouched)

/-- What the reader dispatches by an event. -/
def dispatched? (l : Link) : Event → Option Op
  | .receive i => if l.reader = .running then i.frame?.bind Op.ofText? else none
  | _ => none

/-- The payload of a change of a collection. -/
def Op.news (c : String) : Op → List Json
  | .deliver collection v => if collection = c then [v] else []
  | _ => []

/-- What the reader dispatches in a run, in order. -/
def dispatched (l : Link) : List Event → List Op
  | [] => []
  | e :: es => (l.dispatched? e).toList ++ (l.step e).dispatched es

/-- The payloads of the changes of a collection, in order. -/
def changes (c : String) (ops : List Op) : List Json := ops.flatMap (Op.news c)

/-- What happens until the connection has ended. -/
def untilEnd (l : Link) : List Event → List Event
  | [] => []
  | e :: es => if l.isOpen then e :: (l.step e).untilEnd es else []

/-- A subscription shows the latest of these values, and is open as long as the connection is. -/
def Latest (l : Link) (s : Subscription) (capacity : Nat) (vs : List Json) : Prop :=
  l.fanout.Follows s (.latest capacity vs l.calls.closed.isSome)

variable {l m : Link} {a : Actor} {h h' : Hand} {s : Subscription} {k n : Nat} {c : String}
  {vs : List Json} {e : Event}

/-! ## Turns -/

theorem Deed.lastKey_le (hd : Deed a (l, h) (m, h')) : l.fanout.lastKey ≤ m.fanout.lastKey := by
  cases hd with
  | quiet hq => exact Nat.le_of_eq (by rw [hq.fanout])
  | subscribe c capacity _ _ => exact Fanout.lastKey_le_step _ _
  | teardown reason _ => exact Keyed.lastKey_perform l (.teardown reason)
  | discard _ => exact Fanout.lastKey_le_step l.fanout (.act _ .discard)
  | register | forget | join | leave | handOver | ask | learn => exact Nat.le_refl _

theorem Deed.fanout_inv (hd : Deed a (l, h) (m, h')) (hf : l.fanout.Inv) : m.fanout.Inv := by
  cases hd with
  | quiet hq => rwa [hq.fanout]
  | subscribe c capacity _ _ => exact hf.step _
  | teardown reason _ =>
    rw [fanout_teardown]
    split
    · exact hf
    · exact hf.closeAll
  | discard _ => exact hf.discard _
  | register | forget | join | leave | handOver | ask | learn => exact hf

/-- A deed touches no subscription that the actor has not in hand, unless it ends the
connection. -/
theorem Deed.untouched (hd : Deed a (l, h) (m, h')) (hc : m.calls.closed = l.calls.closed)
    (hk : k ≤ l.fanout.lastKey) (hh : ∀ s, h.subscription = some s → s.key ≠ k) :
    Untouched l.fanout m.fanout k ∧ ∀ s, h'.subscription = some s → s.key ≠ k := by
  cases hd with
  | quiet hq => exact ⟨hq.fanout ▸ .refl _ k, hh⟩
  | subscribe collection capacity _ _ =>
    refine ⟨Fanout.untouched_register hk collection capacity, fun s hs => ?_⟩
    cases hs
    exact Nat.ne_of_gt (Nat.lt_succ_of_le hk)
  | teardown reason _ =>
    rw [teardown_of_same_closed hc]
    exact ⟨.refl _ k, hh⟩
  | discard hs => exact ⟨Fanout.untouched_discard (hh _ hs), fun _ hs => by cases hs⟩
  | handOver => exact ⟨.refl _ k, fun _ hs => by cases hs⟩
  | register | forget | join | leave | ask | learn => exact ⟨.refl _ k, hh⟩

theorem Deeds.untouched (hd : Deeds a (l, h) (m, h')) (hc : m.calls.closed = l.calls.closed)
    (hk : k ≤ l.fanout.lastKey) (hh : ∀ s, h.subscription = some s → s.key ≠ k) :
    Untouched l.fanout m.fanout k := by
  refine (hd.keep_open (P := fun m h => k ≤ m.fanout.lastKey ∧ Untouched l.fanout m.fanout k ∧
    ∀ s, h.subscription = some s → s.key ≠ k) hc ⟨hk, .refl _ k, hh⟩ ?_).2.1
  rintro m h n h' ⟨hle, hun, hno⟩ hd hc
  obtain ⟨hun', hno'⟩ := hd.untouched hc hle hno
  exact ⟨Nat.le_trans hle hd.lastKey_le, hun.trans hun', hno'⟩

/-! ## The latest changes -/

theorem Latest.congr (hs : l.Latest s n vs) (hf : m.fanout = l.fanout)
    (hc : m.calls.closed = l.calls.closed) : m.Latest s n vs := by
  rw [Latest, hf, hc]
  exact hs

theorem Latest.teardown (hs : l.Latest s n vs) (reason : LinkError) :
    (l.teardown reason).Latest s n vs := by
  cases hc : l.calls.closed with
  | some why =>
    rw [teardown_of_closed hc]
    exact hs.congr rfl rfl
  | none =>
    rw [Latest, hc] at hs
    have hclosed := (hs.step (e := .closeAll) (fun _ _ he => by cases he) (fun he => by cases he)
      fun he => by cases he).1
    rw [Latest, closed_teardown, fanout_teardown, hc]
    exact hclosed

/-- A deed of somebody else leaves what a subscription shows, and closes it if it ends the
connection. -/
theorem Deed.latest (hd : Deed a (l, h) (m, h')) (hs : l.Latest s n vs)
    (hh : ∀ t, h.subscription = some t → t.key ≠ s.key) :
    m.Latest s n vs ∧ ∀ t, h'.subscription = some t → t.key ≠ s.key := by
  by_cases hc : m.calls.closed = l.calls.closed
  · obtain ⟨hun, hno⟩ := hd.untouched hc hs.key_le hh
    refine ⟨?_, hno⟩
    rw [Latest, hc]
    exact Fanout.Follows.untouched hs (hd.fanout_inv hs.inv) hun
  · cases hd with
    | teardown reason _ => exact ⟨hs.teardown reason, hh⟩
    | quiet hq => exact absurd (by rw [hq.calls]) hc
    | register kind _ _ => exact absurd (closed_perform l (.register kind)) hc
    | forget | join | leave | subscribe | discard | handOver | ask | learn => exact absurd rfl hc

theorem Deeds.latest (hd : Deeds a (l, h) (m, h')) (hs : l.Latest s n vs)
    (hh : ∀ t, h.subscription = some t → t.key ≠ s.key) : m.Latest s n vs :=
  (hd.keep (P := fun m h => m.Latest s n vs ∧ ∀ t, h.subscription = some t → t.key ≠ s.key)
    ⟨hs, hh⟩ fun ih hm => hm.latest ih.1 ih.2).1

/-! ## Events -/

theorem dispatched?_of_turn (ha : e.actor? = some a) : l.dispatched? e = none := by
  cases e with
  | receive i =>
    simp only [dispatched?]
    split
    · cases i <;> first | rfl | cases ha
    · rfl
  | _ => rfl

theorem dispatched?_text {o : Op} (hd : l.dispatched? e = some o) :
    ∃ text, Op.ofText? text = some o := by
  cases e with
  | receive i =>
    simp only [dispatched?] at hd
    split at hd
    · obtain ⟨text, -, ho⟩ := Option.bind_eq_some_iff.1 hd
      exact ⟨text, ho⟩
    · cases hd
  | _ => cases hd

theorem step_dispatched {i : Inbound} (ha : (Event.receive i).actor? = none) :
    l.step (.receive i) = ((l.dispatched? (.receive i)).map l.perform).getD l := by
  simp only [step, dispatched?]
  split
  · cases i with
    | text frame => exact dispatch_eq l frame
    | binary bytes =>
      simp only [receive, Inbound.frame?]
      cases Text.decode? bytes with
      | none => rfl
      | some frame => exact dispatch_eq l frame
    | control => rfl
    | goodbye _ | failed _ | ended => cases ha
  · rfl

/-- An answer touches no subscription. -/
theorem fanout_of_answer {r : Response} (hr : l.dispatched? e = some (.answer r)) :
    (l.step e).fanout = l.fanout := by
  cases ha : e.actor? with
  | some a =>
    rw [dispatched?_of_turn ha] at hr
    cases hr
  | none =>
    cases e with
    | receive i =>
      rw [step_dispatched ha, hr]
      rfl
    | _ => cases hr

/-- What the server sends comes to a subscription that is open, if it is a change of its
collection. -/
theorem Latest.perform (hs : l.Latest s n vs) {text : String} {o : Op}
    (ho : Op.ofText? text = some o) :
    (l.perform o).Latest s n (vs ++ changes s.collection (if l.isOpen then [o] else [])) := by
  have hsame : o.news s.collection = [] → (l.perform o).fanout = l.fanout →
      (l.perform o).Latest s n (vs ++ changes s.collection (if l.isOpen then [o] else [])) := by
    intro hnews hf
    have hnone : changes s.collection (if l.isOpen then [o] else []) = [] := by
      split <;> simp [changes, hnews]
    rw [hnone, List.append_nil]
    exact hs.congr hf (closed_of_text ho)
  cases o with
  | answer r => exact hsame rfl rfl
  | report r => exact hsame rfl rfl
  | deliver collection v =>
    have hstep := (Fanout.Follows.step hs (e := .deliver collection v) (fun _ _ he => by cases he)
      (fun he => by cases he) fun he => by cases he).1
    have hheard : Fanout.heard s (!l.calls.closed.isSome) (.deliver collection v) =
        if !l.calls.closed.isSome && collection = s.collection then [.feed v] else [] := rfl
    rw [show (Queue.latest n vs l.calls.closed.isSome).closed = l.calls.closed.isSome from rfl,
      hheard] at hstep
    -- a closed subscription is in no channel, so a change after the end comes to nothing
    show (l.fanout.step (.deliver collection v)).1.Follows s (.latest n _ l.calls.closed.isSome)
    cases hc : l.calls.closed with
    | some reason =>
      rw [hc] at hstep
      simpa [isOpen, hc, Queue.run, changes] using hstep
    | none =>
      rw [hc] at hstep
      by_cases hcol : collection = s.collection
      · simp only [isOpen, hc, changes, Op.news, hcol, Option.isNone_none, ↓reduceIte,
          List.flatMap_singleton]
        simp only [hcol] at hstep
        rw [← Queue.latest_feed]
        exact hstep
      · simpa [isOpen, hc, changes, Op.news, hcol, Queue.run] using hstep
  | register _ | cancel _ | teardown _ | subscribe _ _ | remove _ | act _ _ =>
    cases Op.isInbound_of_text ho

/-- **What a subscription shows**, as long as it is in no hand of those who act, and nobody else has
got its handle. -/
theorem latest_event (hs : l.Latest s n vs)
    (hturn : ∀ a, e.actor? = some a → ∀ t, (l.hand a).subscription = some t → t.key ≠ s.key)
    (hact : ∀ t act, e = .subscriber t act → t.key ≠ s.key) :
    (l.step e).Latest s n
      (vs ++ changes s.collection (if l.isOpen then (l.dispatched? e).toList else [])) := by
  have hquiet : (l.step e).Latest s n vs → l.dispatched? e = none → (l.step e).Latest s n
      (vs ++ changes s.collection (if l.isOpen then (l.dispatched? e).toList else [])) := by
    intro hm hd
    simpa [changes, hd] using hm
  cases ha : e.actor? with
  | some a => exact hquiet (Deeds.latest (step_turn ha) hs (hturn a ha)) (dispatched?_of_turn ha)
  | none =>
    cases e with
    | receive i =>
      rw [step_dispatched ha]
      cases hd : l.dispatched? (.receive i) with
      | none => simpa [changes, hd] using hs
      | some o =>
        obtain ⟨text, ho⟩ := dispatched?_text hd
        exact hs.perform ho
    | subscriber t act =>
      refine hquiet ?_ rfl
      have hne := hact t act rfl
      refine Fanout.Follows.untouched hs (hs.inv.step (.act t act))
        ⟨Fanout.Follows.box_other hs hne act, fun c => ?_⟩
      have hends : (Fanout.Event.act t act).ends ⟨c, s.key⟩ = false := by
        have ht : t ≠ ⟨c, s.key⟩ := fun he => hne (by rw [he])
        cases act <;> simp [Fanout.Event.ends, ht]
      show s.key ∈ (l.fanout.step (.act t act)).1.subscribers c ↔ _
      rw [Fanout.subscribers_step]
      simp [hends, Fanout.opens]
    | teardown reason => exact hquiet (hs.teardown reason) rfl
    | fire token => exact hquiet hs rfl
    | _ => cases ha

/-! ## Runs -/

theorem changes_append (c : String) (ops ops' : List Op) :
    changes c (ops ++ ops') = changes c ops ++ changes c ops' := List.flatMap_append

theorem dispatched_append (l : Link) (es : List Event) (e : Event) :
    l.dispatched (es ++ [e]) = l.dispatched es ++ ((l.run es).dispatched? e).toList := by
  induction es generalizing l with
  | nil => simp [dispatched, run]
  | cons d es ih =>
    simp only [List.cons_append, dispatched, ih, List.append_assoc]
    rfl

/-- Until the connection has ended, one event more may dispatch one thing more. -/
theorem dispatched_untilEnd (hl : l.Inv) (es : List Event) (e : Event) :
    l.dispatched (l.untilEnd (es ++ [e])) = l.dispatched (l.untilEnd es) ++
      if (l.run es).isOpen then ((l.run es).dispatched? e).toList else [] := by
  induction es generalizing l with
  | nil =>
    simp only [List.nil_append, untilEnd, run, List.foldl_nil]
    split
    · rename_i hopen
      simp [dispatched, hopen]
    · rename_i hclosed
      simp [dispatched, hclosed]
  | cons d es ih =>
    cases hopen : l.isOpen with
    | true =>
      simp only [List.cons_append, untilEnd, hopen, ↓reduceIte, dispatched, ih (hl.event d),
        List.append_assoc]
      rfl
    | false =>
      have hclosed : (l.run (d :: es)).isOpen = false := by
        obtain ⟨reason, hc⟩ : ∃ reason, l.calls.closed = some reason := by
          simpa [isOpen, Option.isNone_eq_false_iff, Option.isSome_iff_exists] using hopen
        simp [isOpen, closed_run hl hc]
      simp only [List.cons_append, untilEnd, hopen, hclosed, Bool.false_eq_true, ↓reduceIte,
        dispatched, List.append_nil]

end Link

end ServerLink
