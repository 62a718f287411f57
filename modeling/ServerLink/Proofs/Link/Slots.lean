import ServerLink.Proofs.Link.Finished

/-!
# Ends that are kept

A call whose end is kept has ended, so nothing else can end it (`Spent`): its end is kept as it is
for as long as the call is in hand (`slot_run`).
-/

namespace ServerLink.Link

/-- The calls whose ends are kept were admitted, and have ended. -/
structure Spent (l : Link) : Prop where
  calls : l.calls.Inv
  admitted : ∀ id how, l.slots.lookup id = some how → id < l.calls.nextId
  ended : ∀ id how, l.slots.lookup id = some how → ¬ l.calls.Outstanding id

variable {l m : Link} {a : Actor} {h h' : Hand} {o : Op} {id : Nat} {how : Slot.End}

/-! ## Operations -/

/-- The ends that are kept are those that the calls bring about, but for what a cancel does. -/
theorem endsOf_ends {e : Calls.Event} (he : o.callEvent? = some e) (ho : o ≠ .cancel id) :
    endsOf id (l.ends o) = endsOf id (l.calls.step e).2 := by
  cases o with
  | register kind =>
    cases he
    simp only [ends, Calls.step]
    split <;> rfl
  | cancel call =>
    cases he
    rw [Calls.endsOf_cancel_ne fun hid => ho (by rw [hid])]
    rfl
  | answer _ | report _ | teardown _ =>
    cases he
    rfl
  | subscribe _ _ | deliver _ _ | remove _ | act _ _ => cases he

/-- What happens to a call and to its slot: nothing, or the slot is kept or emptied, or it is filled
when the call ends. -/
theorem slot_perform (hl : l.calls.Inv) (o : Op) (id : Nat) :
    (o = .cancel id ∧ (l.perform o).slots.lookup id = none) ∨
    ((l.perform o).slots.lookup id = l.slots.lookup id ∧
      ((l.perform o).calls.Outstanding id → l.calls.Outstanding id ∨ l.calls.nextId ≤ id)) ∨
    (¬ (l.perform o).calls.Outstanding id ∧ id < (l.perform o).calls.nextId ∧
      (l.calls.Outstanding id ∨ l.calls.nextId ≤ id)) := by
  have hslots := slots_perform l o id
  by_cases ho : o = .cancel id
  · rw [if_pos ho] at hslots
    exact .inl ⟨ho, hslots⟩
  rw [if_neg ho] at hslots
  right
  cases he : o.callEvent? with
  | none =>
    have hcalls : (l.perform o).calls = l.calls := by rw [calls_perform, he]
    refine .inl ⟨?_, fun hout => .inl (hcalls ▸ hout)⟩
    rw [hslots]
    cases o <;> first | rfl | cases he
  | some e =>
    have hcalls : (l.perform o).calls = (l.calls.step e).1 := by rw [calls_perform, he]
    have hledger := Calls.ledger_step hl e id
    rw [endsOf_ends he ho] at hslots
    have hcount : ∀ c : Calls, c.Outstanding id ↔ 0 < c.held.count id := fun c => by
      rw [← Calls.mem_held, List.count_pos_iff]
    have honce : l.calls.held.count id ≤ 1 := List.nodup_iff_count_le_one.1 hl.once id
    have hbelow : l.calls.nextId ≤ id → l.calls.held.count id = 0 := fun hid =>
      List.count_eq_zero.2 fun hm => absurd (hl.below id hm) (Nat.not_lt.2 hid)
    rw [hcalls, hcount, hcount]
    cases hends : endsOf id (l.calls.step e).2 with
    | nil =>
      rw [hends] at hslots hledger
      refine .inl ⟨hslots, fun hout => ?_⟩
      simp only [List.length_nil] at hledger
      split at hledger <;> omega
    | cons x xs =>
      rw [hends, List.length_cons] at hledger
      right
      have hnext := Calls.nextId_le_step l.calls e
      split at hledger
      · rename_i hnew
        have := hbelow hnew.1
        omega
      · have hpos : 0 < l.calls.held.count id := by omega
        have := hl.below id (List.count_pos_iff.1 hpos)
        omega

namespace Spent

variable (hl : l.Spent)
include hl

theorem perform (o : Op) : (l.perform o).Spent := by
  have hcalls : (l.perform o).calls.Inv ∧ l.calls.nextId ≤ (l.perform o).calls.nextId := by
    rw [calls_perform]
    split
    · exact ⟨hl.calls.step _, Calls.nextId_le_step _ _⟩
    · exact ⟨hl.calls, Nat.le_refl _⟩
  refine ⟨hcalls.1, fun id how hs => ?_, fun id how hs => ?_⟩
  · rcases slot_perform hl.calls o id with ⟨-, hnone⟩ | ⟨hsame, -⟩ | ⟨-, hlt, -⟩
    · rw [hnone] at hs
      cases hs
    · exact Nat.lt_of_lt_of_le (hl.admitted id how (hsame ▸ hs)) hcalls.2
    · exact hlt
  · rcases slot_perform hl.calls o id with ⟨-, hnone⟩ | ⟨hsame, hout⟩ | ⟨hended, -⟩
    · rw [hnone] at hs
      cases hs
    · rw [hsame] at hs
      intro hout'
      rcases hout hout' with ho | hid
      · exact hl.ended id how hs ho
      · exact absurd (hl.admitted id how hs) (Nat.not_lt.2 hid)
    · exact hended

/-- Only a cancel takes an end away that is kept, and nothing changes it. -/
theorem slot_perform (ho : o ≠ .cancel id) (hs : l.slots.lookup id = some how) :
    (l.perform o).slots.lookup id = some how := by
  rcases Link.slot_perform hl.calls o id with ⟨hcancel, -⟩ | ⟨hsame, -⟩ | ⟨-, -, hout | hid⟩
  · exact absurd hcancel ho
  · rw [hsame, hs]
  · exact absurd hout (hl.ended id how hs)
  · exact absurd (hl.admitted id how hs) (Nat.not_lt.2 hid)

omit hl in
theorem congr (hl : l.Spent) (hc : m.calls = l.calls) (hs : m.slots = l.slots) : m.Spent :=
  ⟨hc ▸ hl.calls, by rw [hc, hs]; exact hl.admitted, by rw [hc, hs]; exact hl.ended⟩

/-! ## Deeds -/

theorem deed (hd : Deed a (l, h) (m, h')) : m.Spent := by
  cases hd with
  | quiet hq => exact hl.congr hq.calls hq.slots
  | register kind => exact hl.perform (.register kind)
  | forget => exact hl.perform (.cancel _)
  | teardown reason => exact hl.perform (.teardown reason)
  | subscribe | join | leave | discard | handOver | ask | learn => exact hl.congr rfl rfl

/-- Deeds keep the end of a call that is known after them. -/
theorem slot_deed (hd : Deed a (l, h) (m, h')) (hk : m.Known id)
    (hs : l.slots.lookup id = some how) : m.slots.lookup id = some how := by
  cases hd with
  | quiet hq => rwa [hq.slots]
  | @forget _ _ call _ hh =>
    refine hl.slot_perform (o := .cancel call) ?_ hs
    rintro ⟨⟩
    exact not_known_forget l _ hk
  | teardown reason => exact hl.slot_perform (o := .teardown reason) (by simp) hs
  | register | subscribe | join | leave | discard | handOver | ask | learn => exact hs

theorem slot_deeds (hd : Deeds a (l, h) (m, h')) (hk : m.Known id)
    (hs : l.slots.lookup id = some how) : m.slots.lookup id = some how := by
  refine (hd.keep (P := fun m _ => m.Spent ∧ id < m.calls.nextId ∧
    (m.Known id → m.slots.lookup id = some how)) ⟨hl, hl.admitted id how hs, fun _ => hs⟩ ?_).2.2 hk
  rintro m h n h' ⟨hm, hid, ih⟩ hd
  refine ⟨hm.deed hd, Nat.lt_of_lt_of_le hid hd.nextId_le, fun hn => ?_⟩
  exact hm.slot_deed hd hn (ih (hd.known hm.calls hid hn))

theorem deeds (hd : Deeds a (l, h) (m, h')) : m.Spent :=
  hd.keep (P := fun m _ => m.Spent) hl fun hm hd => hm.deed hd

/-! ## Runs -/

theorem event (e : Event) : (l.step e).Spent := by
  cases ha : e.actor? with
  | some a => exact hl.deeds (step_turn ha)
  | none =>
    rcases step_shared (l := l) ha with ⟨o, -, hs⟩ | ⟨fired, hs⟩ <;> rw [hs]
    · exact hl.perform o
    · exact hl.congr rfl rfl

theorem slot_event {e : Event} (hk : (l.step e).Known id) (hs : l.slots.lookup id = some how) :
    (l.step e).slots.lookup id = some how := by
  cases ha : e.actor? with
  | some a => exact hl.slot_deeds (step_turn ha) hk hs
  | none =>
    rcases step_shared (l := l) ha with ⟨o, ho, hstep⟩ | ⟨fired, hstep⟩ <;> rw [hstep] at hk ⊢
    · refine hl.slot_perform ?_ hs
      rintro rfl
      exact not_known_forget l id hk
    · exact hs

theorem run (events : List Event) : (l.run events).Spent := by
  induction events generalizing l with
  | nil => exact hl
  | cons e events ih => exact ih (hl.event e)

omit hl in
theorem ofSettings (settings : Settings) : (Link.ofSettings settings).Spent :=
  ⟨.empty, by rintro _ _ ⟨⟩, by rintro _ _ ⟨⟩⟩

end Spent

theorem Reachable.run (hl : l.Reachable) (events : List Event) : (l.run events).Reachable := by
  obtain ⟨settings, before, rfl⟩ := hl
  exact ⟨settings, before ++ events, (run_append _ before events).symm⟩

theorem Reachable.spent (hl : l.Reachable) : l.Spent := by
  obtain ⟨settings, events, rfl⟩ := hl
  exact (Spent.ofSettings settings).run events

/-- **The end of a call stays as it is** for as long as the call is in hand. -/
theorem slot_run (hl : l.Spent) (ht : l.Tidy) {events : List Event}
    (hk : (l.run events).Known id) (hs : l.slots.lookup id = some how) :
    (l.run events).slots.lookup id = some how := by
  induction events generalizing l with
  | nil => exact hs
  | cons e events ih =>
    have hlt : id < (l.step e).calls.nextId :=
      Nat.lt_of_lt_of_le (hl.admitted id how hs) (nextId_event l e)
    have hknown : (l.step e).Known id := known_run (ht.event e) hlt hk
    exact ih (hl.event e) (ht.event e) hk (hl.slot_event hknown hs)

end ServerLink.Link
