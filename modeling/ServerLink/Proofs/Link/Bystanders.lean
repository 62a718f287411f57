import ServerLink.Proofs.Link.Mailboxes
import ServerLink.Proofs.Subscription.Yields

/-!
# What a connection does to a subscription that is in nobody's hand

Once a caller has got its subscription no actor of the connection has it in hand. From then on
whatever happens on the connection feeds it, closes it or leaves it alone, except what the caller
does itself (`step_spares`).
-/

namespace ServerLink.Link

open Fanout (Spares)

/-- No actor has a subscription with this key in hand. -/
def Unheld (l : Link) (s : Subscription) : Prop :=
  ∀ a t, (l.hand a).subscription = some t → t.key ≠ s.key

/-- What others did between two states has spared the subscription. -/
def Spared (l m : Link) (s : Subscription) : Prop :=
  ∃ es, Spares s es ∧ m.fanout = l.fanout.run es

variable {l m n : Link} {a : Actor} {h h' : Hand} {s : Subscription} {e : Event}

theorem Spared.of_fanout (hf : m.fanout = l.fanout) : Spared l m s := ⟨[], .nil, hf⟩

theorem Spared.trans (hl : Spared l m s) (hm : Spared m n s) : Spared l n s := by
  obtain ⟨es, hs, hf⟩ := hl
  obtain ⟨es', hs', hf'⟩ := hm
  exact ⟨es ++ es', hs.append hs', by rw [hf', hf, Fanout.run_append]⟩

theorem spared_teardown (l : Link) (s : Subscription) (reason : LinkError) :
    Spared l (l.teardown reason) s := by
  rw [Spared, fanout_teardown]
  split
  · exact ⟨[], .nil, rfl⟩
  · exact ⟨[.closeAll], .single (by simp), rfl⟩

/-! ## Turns -/

/-- A deed spares a subscription that the actor has not in hand, and does not put it there. -/
theorem Deed.spares (hd : Deed a (l, h) (m, h')) (hk : s.key ≤ l.fanout.lastKey)
    (hh : ∀ t, h.subscription = some t → t.key ≠ s.key) :
    Spared l m s ∧ ∀ t, h'.subscription = some t → t.key ≠ s.key := by
  cases hd with
  | quiet hq => exact ⟨.of_fanout hq.fanout, hh⟩
  | subscribe c capacity _ _ =>
    refine ⟨⟨[.register c capacity], .single (by simp), rfl⟩, fun t ht => ?_⟩
    cases ht
    exact Nat.ne_of_gt (Nat.lt_succ_of_le hk)
  | teardown reason _ => exact ⟨spared_teardown l s reason, hh⟩
  | @discard _ _ t ht =>
    refine ⟨⟨[.act t .discard], .single fun s' a' he hkey => ?_, rfl⟩, fun _ ht => by cases ht⟩
    cases he
    exact absurd hkey (hh _ ht)
  | handOver => exact ⟨.of_fanout rfl, fun _ ht => by cases ht⟩
  | register | forget | join | leave | ask | learn => exact ⟨.of_fanout rfl, hh⟩

theorem Deeds.spares (hd : Deeds a (l, h) (m, h')) (hk : s.key ≤ l.fanout.lastKey)
    (hh : ∀ t, h.subscription = some t → t.key ≠ s.key) :
    Spared l m s ∧ ∀ t, h'.subscription = some t → t.key ≠ s.key := by
  refine (hd.keep (P := fun m h => s.key ≤ m.fanout.lastKey ∧ Spared l m s ∧
    ∀ t, h.subscription = some t → t.key ≠ s.key) ⟨hk, .of_fanout rfl, hh⟩ ?_).2
  rintro m h n h' ⟨hle, hspared, hno⟩ hd
  obtain ⟨hnext, hno'⟩ := hd.spares hle hno
  exact ⟨Nat.le_trans hle hd.lastKey_le, hspared.trans hnext, hno'⟩

/-! ## Events -/

/-- Something that is brought spares the subscription, unless it is an act of its own. -/
theorem Brings.spares {o : Op} (hb : Brings l e o)
    (hact : ∀ t act, e = .subscriber t act → t.key = s.key → t = s ∧ act = .close) :
    Spared l (l.perform o) s := by
  cases hb with
  | act t act =>
    refine ⟨[.act t act], .single fun s' a' he => ?_, rfl⟩
    cases he
    exact hact t act rfl
  | teardown reason => exact spared_teardown l s reason
  | frame hr hi ho =>
    cases o with
    | answer r | report r => exact .of_fanout rfl
    | deliver c v => exact ⟨[.deliver c v], .single (by simp), rfl⟩
    | register _ | cancel _ | teardown _ | subscribe _ _ | remove _ | act _ _ =>
      cases Op.isInbound_of_text ho

/-- What is nobody's turn puts nothing into anybody's hand. -/
theorem Unheld.shared (hu : l.Unheld s) (ha : e.actor? = none) : (l.step e).Unheld s := by
  intro b t ht
  have hplace : SamePlace l (l.step e) b := step_others (by simp [ha])
  rw [hand_eq hplace] at ht
  exact hu b t ht

/-- **Others spare a subscription** that is in nobody's hand, and it comes into nobody's. -/
theorem step_spares (hk : s.key ≤ l.fanout.lastKey) (hu : l.Unheld s)
    (hact : ∀ t act, e = .subscriber t act → t.key = s.key → t = s ∧ act = .close) :
    Spared l (l.step e) s ∧ (l.step e).Unheld s := by
  cases ha : e.actor? with
  | some a =>
    obtain ⟨hspared, hown⟩ := Deeds.spares (step_turn ha) hk (hu a)
    refine ⟨hspared, fun b t ht => ?_⟩
    by_cases hb : b = a
    · subst hb
      exact hown t ht
    · have hplace : SamePlace l (l.step e) b := step_others fun he => hb (by
        rw [ha] at he
        exact (Option.some.inj he).symm)
      rw [hand_eq hplace] at ht
      exact hu b t ht
  | none =>
    refine ⟨?_, hu.shared ha⟩
    rcases step_shared (l := l) ha with ⟨o, hb, hs⟩ | ⟨fired, hs⟩ <;> rw [hs]
    · exact hb.spares hact
    · exact .of_fanout rfl

end ServerLink.Link
