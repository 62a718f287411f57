import ServerLink.Proofs.Link.Turns

/-!
# Ownership

What is shared is in somebody's hand: a call that is outstanding, or whose end has not been looked
at, in that of the one actor that makes it; a place in the line in that of the actor that stands
there; the question for job reports in that of the task that has asked; and a key that no caller
has got in that of one task (`Tidy`). Every deed keeps this, so it holds at any time.
-/

namespace ServerLink.Link

/-- A call that has not ended, or whose end is kept. -/
def Known (l : Link) (id : Nat) : Prop :=
  l.calls.Outstanding id ∨ (l.slots.lookup id).isSome

/-- The calls that are known are those in somebody's hand. -/
structure Owned (l : Link) (f : Actor → Hand) : Prop where
  calls : l.calls.Inv
  known : ∀ id, l.Known id ↔ ∃ a kind, (f a).call = some (id, kind)
  once : ∀ a b id kind kind', (f a).call = some (id, kind) → (f b).call = some (id, kind') → a = b
  admitted : ∀ id, l.Known id → id < l.calls.nextId
  pending : ∀ a id kind kind', (f a).call = some (id, kind) →
    l.calls.pending.lookup id = some kind' → kind' = kind
  waiting : ∀ a id kind, (f a).call = some (id, kind) →
    id ∈ Table.values l.calls.jobs.waiting → kind = .job

/-- Whoever has a place in the line stands there, once. -/
structure Queued (l : Link) (f : Actor → Hand) : Prop where
  once : l.line.Nodup
  mem : ∀ a, a ∈ l.line ↔ (f a).inLine = true

/-- The question for job reports is that of the task that has asked. -/
def Asked (l : Link) (f : Actor → Hand) : Prop :=
  ∀ a, (f a).asks = true ↔ ∃ task, a = .caller task ∧ l.jobStream = .asking task

/-- A key that no caller has got is in one hand. -/
structure Keyed (l : Link) (f : Actor → Hand) : Prop where
  issued : ∀ a s, (f a).subscription = some s → s.key ≤ l.fanout.lastKey
  once : ∀ a b s s', (f a).subscription = some s → (f b).subscription = some s' →
    s.key = s'.key → a = b

/-- All that is shared is in somebody's hand. -/
structure Kept (l : Link) (f : Actor → Hand) : Prop where
  owned : Owned l f
  queued : Queued l f
  asked : Asked l f
  keyed : Keyed l f

/-- Between two events, everybody has in hand what belongs to where they stand. -/
abbrev Tidy (l : Link) : Prop := Kept l l.hand

variable {l m : Link} {f g : Actor → Hand} {a b : Actor} {h h' : Hand} {id : Nat}

/-- What stays the same about one hand that changes stays the same about all. -/
theorem same_hand {α : Type} (part : Hand → α) (hh : part h = part (f a)) (b : Actor) :
    part (Function.update f a h b) = part (f b) := by
  by_cases hb : b = a
  · rw [hb, Function.update_self, hh]
  · rw [Function.update_of_ne hb]

/-! ## Calls that are known -/

theorem known_iff : l.Known id ↔ 0 < l.calls.held.count id ∨ (l.slots.lookup id).isSome := by
  rw [Known, ← Calls.mem_held, ← List.count_pos_iff]

/-- An event of the calls that keeps the ends that it brings about lets nobody forget a call. -/
theorem known_step (hl : l.calls.Inv) {e : Calls.Event} (hm : m.calls = (l.calls.step e).1)
    (hs : m.slots.lookup id = ((endsOf id (l.calls.step e).2).getLast?).or (l.slots.lookup id))
    (hid : ¬ (l.calls.nextId ≤ id ∧ id < (l.calls.step e).1.nextId)) :
    m.Known id ↔ l.Known id := by
  have hledger := Calls.ledger_step hl e id
  rw [if_neg hid] at hledger
  rw [known_iff, known_iff, hm, hs]
  cases hends : endsOf id (l.calls.step e).2 with
  | nil =>
    rw [hends, List.length_nil] at hledger
    rw [show (l.calls.step e).1.held.count id = l.calls.held.count id from hledger]
    rfl
  | cons x xs =>
    rw [hends, List.length_cons] at hledger
    have hpos : 0 < l.calls.held.count id := by omega
    simp [hpos]

/-- Only its admission makes a call known, and only its cancel lets it be forgotten. -/
theorem known_perform (hl : l.calls.Inv) {o : Op} (hf : o ≠ .cancel id)
    (hr : ∀ kind, o = .register kind → id ≠ l.calls.nextId) :
    (l.perform o).Known id ↔ l.Known id := by
  have hslots := slots_perform l o id
  rw [if_neg hf] at hslots
  have hsame : ¬ (l.calls.nextId ≤ id ∧ id < l.calls.nextId) := by omega
  cases o with
  | register kind =>
    refine known_step hl (e := .register kind) rfl ?_ fun ⟨hle, hlt⟩ => ?_
    · have hnone : (l.calls.step (.register kind)).2 = [] := by
        simp only [Calls.step]
        split <;> rfl
      rw [hnone]
      exact hslots
    · have hne := hr kind rfl
      have hnext : (l.calls.step (.register kind)).1.nextId ≤ l.calls.nextId + 1 := by
        rw [Calls.nextId_step]
        dsimp only
        split <;> omega
      omega
  | answer r =>
    exact known_step hl (e := .answer r) rfl hslots (by rw [Calls.nextId_step]; exact hsame)
  | report r => exact known_step hl (e := .report r) rfl hslots hsame
  | cancel call =>
    have hne : id ≠ call := fun he => hf (by rw [he])
    refine known_step hl (e := .cancel call) rfl ?_ hsame
    rw [Calls.endsOf_cancel_ne hne]
    exact hslots
  | teardown reason =>
    refine known_step hl (e := .failAll reason) (calls_teardown l reason) hslots ?_
    rw [Calls.nextId_step]
    exact hsame
  | subscribe _ _ | deliver _ _ | remove _ | act _ _ => exact .rfl

theorem not_known_forget (l : Link) (id : Nat) : ¬ (l.forget id).Known id := by
  rintro ((hp | hw) | hs)
  · exact Table.keys_erase hp
  · obtain ⟨e, he, hid⟩ := List.mem_map.1 hw
    exact (by simpa using (List.mem_filter.1 he).2 : e.2 ≠ id) hid
  · rw [show (l.forget id).slots.lookup id = none from Table.lookup_erase_self] at hs
    cases hs

theorem known_register (hc : l.calls.closed = none) (kind : Call.Kind) :
    (l.perform (.register kind)).Known l.calls.nextId :=
  .inl (Calls.outstanding_of_pending (Calls.pending_register hc))

/-! ## The calls -/

namespace Owned

theorem congr (ho : Owned l f) (hc : m.calls = l.calls) (hs : m.slots = l.slots)
    (hg : ∀ b, (g b).call = (f b).call) : Owned m g := by
  have hk : ∀ id, m.Known id ↔ l.Known id := fun id => by rw [Known, Known, hc, hs]
  refine ⟨hc ▸ ho.calls, fun id => ?_, ?_, fun id hid => ?_, ?_, ?_⟩
  · simp only [hk, ho.known, hg]
  · simpa only [hg] using ho.once
  · rw [hc]
    exact ho.admitted id ((hk id).1 hid)
  · simpa only [hg, hc] using ho.pending
  · simpa only [hg, hc] using ho.waiting

/-- What changes neither which calls are known nor whose they are. -/
theorem perform (ho : Owned l f) {o : Op} (hr : ∀ kind, o ≠ .register kind)
    (hf : ∀ id, o ≠ .cancel id) : Owned (l.perform o) f := by
  have hk : ∀ id, (l.perform o).Known id ↔ l.Known id := fun id =>
    known_perform ho.calls (hf id) fun kind he => absurd he (hr kind)
  have hcalls : (l.perform o).calls = l.calls ∨
      ∃ e, (∀ kind, e ≠ .register kind) ∧ (l.perform o).calls = (l.calls.step e).1 := by
    rw [calls_perform]
    cases o with
    | register kind => exact absurd rfl (hr kind)
    | cancel call => exact absurd rfl (hf call)
    | answer _ | report _ | teardown _ => exact .inr ⟨_, by simp, rfl⟩
    | subscribe _ _ | deliver _ _ | remove _ | act _ _ => exact .inl rfl
  rcases hcalls with hsame | ⟨e, he, hstep⟩
  · refine ⟨hsame ▸ ho.calls, fun id => (hk id).trans (ho.known id), ho.once, fun id hid => ?_,
      ?_, ?_⟩
    · rw [hsame]
      exact ho.admitted id ((hk id).1 hid)
    · rw [hsame]
      exact ho.pending
    · rw [hsame]
      exact ho.waiting
  · refine ⟨hstep ▸ ho.calls.step e, fun id => (hk id).trans (ho.known id), ho.once,
      fun id hid => ?_, fun a id kind kind' ha hp => ?_, fun a id kind ha hw => ?_⟩
    · rw [hstep]
      exact Nat.lt_of_lt_of_le (ho.admitted id ((hk id).1 hid)) (Calls.nextId_le_step l.calls e)
    · rw [hstep] at hp
      exact ho.pending a id kind kind' ha (Calls.pending_of_step he hp)
    · rw [hstep] at hw
      obtain ⟨job, hm⟩ := Table.mem_values.1 hw
      rcases Calls.waiting_step hm with hm | ⟨r, rfl, rfl, hst⟩
      · exact ho.waiting a id kind ha (Table.mem_values.2 ⟨job, hm⟩)
      · exact (ho.pending a r.id kind .job ha hst.1).symm

section
variable (ho : Owned l f)
include ho

/-- A call that is admitted is in the hand of the one who makes it. -/
theorem register (hc : l.calls.closed = none) (kind : Call.Kind) (hcall : (f a).call = none)
    (hh : h.call = some (l.calls.nextId, kind)) :
    Owned (l.perform (.register kind)) (Function.update f a h) := by
  have hfresh : ∀ b kind', (f b).call ≠ some (l.calls.nextId, kind') := fun b kind' hb =>
    Nat.lt_irrefl _ (ho.admitted _ ((ho.known _).2 ⟨b, kind', hb⟩))
  have hstep : (l.perform (.register kind)).calls = (l.calls.step (.register kind)).1 := rfl
  have hpending : (l.perform (.register kind)).calls.pending =
      Table.insert l.calls.pending l.calls.nextId kind := by
    rw [hstep]
    simp only [Calls.step, Calls.register_ok hc]
  have hwaiting : (l.perform (.register kind)).calls.jobs = l.calls.jobs := by
    rw [hstep]
    simp only [Calls.step, Calls.register_ok hc]
  -- the hands as they are now: that of `a` has the new call, which is in no other
  have hhand : ∀ b id kind', (Function.update f a h b).call = some (id, kind') →
      (b = a ∧ id = l.calls.nextId ∧ kind' = kind) ∨
        (id ≠ l.calls.nextId ∧ (f b).call = some (id, kind')) := by
    intro b id kind' hb
    by_cases hba : b = a
    · subst hba
      rw [Function.update_self, hh] at hb
      cases hb
      exact .inl ⟨rfl, rfl, rfl⟩
    · rw [Function.update_of_ne hba] at hb
      exact .inr ⟨fun he => hfresh b kind' (he ▸ hb), hb⟩
  have hknown : ∀ id, (l.perform (.register kind)).Known id ↔
      id = l.calls.nextId ∨ l.Known id := by
    intro id
    by_cases hid : id = l.calls.nextId
    · subst hid
      exact ⟨fun _ => .inl rfl, fun _ => known_register hc kind⟩
    · rw [known_perform ho.calls (by simp) fun _ _ => hid]
      simp [hid]
  refine ⟨ho.calls.step (.register kind), fun id => ?_, fun b b' id k k' hb hb' => ?_,
    fun id hid => ?_, fun b id k k' hb hp => ?_, fun b id k hb hw => ?_⟩
  · rw [hknown, ho.known]
    constructor
    · rintro (rfl | ⟨b, k, hb⟩)
      · exact ⟨a, kind, by rw [Function.update_self, hh]⟩
      · have hba : b ≠ a := fun he => by rw [he, hcall] at hb; cases hb
        exact ⟨b, k, by rw [Function.update_of_ne hba, hb]⟩
    · rintro ⟨b, k, hb⟩
      rcases hhand b id k hb with ⟨-, hid, -⟩ | ⟨-, hb⟩
      · exact .inl hid
      · exact .inr ⟨b, k, hb⟩
  · rcases hhand b id k hb with ⟨rfl, hid, -⟩ | ⟨hid, hb⟩ <;>
      rcases hhand b' id k' hb' with ⟨rfl, hid', -⟩ | ⟨hid', hb'⟩
    · rfl
    · exact absurd hid hid'
    · exact absurd hid' hid
    · exact ho.once b b' id k k' hb hb'
  · have hnext : (l.perform (.register kind)).calls.nextId = l.calls.nextId + 1 := by
      rw [hstep, Calls.nextId_step]
      simp [hc]
    rcases (hknown id).1 hid with rfl | hold
    · omega
    · have := ho.admitted id hold
      omega
  · rw [hpending] at hp
    rcases hhand b id k hb with ⟨-, rfl, rfl⟩ | ⟨hid, hb⟩
    · rw [Table.lookup_insert_self] at hp
      exact (Option.some.inj hp).symm
    · rw [Table.lookup_insert_ne hid] at hp
      exact ho.pending b id k k' hb hp
  · rw [hwaiting] at hw
    rcases hhand b id k hb with ⟨-, rfl, -⟩ | ⟨-, hb⟩
    · exact absurd (ho.admitted _ (.inl (.inr hw))) (Nat.lt_irrefl _)
    · exact ho.waiting b id k hb hw

/-- A call that is given up is in nobody's hand. -/
theorem forget {kind : Call.Kind} (hcall : (f a).call = some (id, kind)) (hh : h.call = none) :
    Owned (l.forget id) (Function.update f a h) := by
  have hhand : ∀ b i kind', (Function.update f a h b).call = some (i, kind') ↔
      i ≠ id ∧ (f b).call = some (i, kind') := by
    intro b i kind'
    by_cases hba : b = a
    · subst hba
      rw [Function.update_self, hh, hcall]
      constructor
      · intro he
        cases he
      · rintro ⟨hne, he⟩
        cases he
        exact absurd rfl hne
    · rw [Function.update_of_ne hba]
      refine ⟨fun hb => ⟨?_, hb⟩, And.right⟩
      rintro rfl
      exact hba (ho.once b a i kind' kind hb hcall)
  have hknown : ∀ i, (l.forget id).Known i ↔ i ≠ id ∧ l.Known i := by
    intro i
    by_cases hi : i = id
    · subst hi
      simp [not_known_forget]
    · have hsame : (l.perform (.cancel id)).Known i ↔ l.Known i :=
        known_perform ho.calls (by simpa using Ne.symm hi) (by simp)
      rw [show l.forget id = l.perform (.cancel id) from rfl, hsame]
      simp [hi]
  refine ⟨ho.calls.step (.cancel id), fun i => ?_, fun b b' i k k' hb hb' => ?_, fun i hi => ?_,
    fun b i k k' hb hp => ?_, fun b i k hb hw => ?_⟩
  · simp only [hknown, ho.known, hhand]
    exact ⟨fun ⟨hne, b, k, hb⟩ => ⟨b, k, hne, hb⟩, fun ⟨b, k, hne, hb⟩ => ⟨hne, b, k, hb⟩⟩
  · exact ho.once b b' i k k' ((hhand b i k).1 hb).2 ((hhand b' i k').1 hb').2
  · exact ho.admitted i ((hknown i).1 hi).2
  · exact ho.pending b i k k' ((hhand b i k).1 hb).2
      (Calls.pending_of_step (e := .cancel id) (by simp) hp)
  · obtain ⟨job, hm⟩ := Table.mem_values.1 hw
    exact ho.waiting b i k ((hhand b i k).1 hb).2
      (Table.mem_values.2 ⟨job, (List.mem_filter.1 hm).1⟩)

theorem deed (hd : Deed a (l, f a) (m, h)) : Owned m (Function.update f a h) := by
  cases hd with
  | quiet hq => exact ho.congr hq.calls hq.slots (same_hand Hand.call rfl)
  | register kind hc hh => exact ho.register hc kind hh rfl
  | forget hh => exact ho.forget hh rfl
  | teardown reason =>
    have ht := ho.perform (o := .teardown reason) (by simp) (by simp)
    exact ht.congr rfl rfl (same_hand Hand.call rfl)
  | join | leave | discard | handOver | ask | learn | subscribe =>
    exact ho.congr rfl rfl (same_hand Hand.call rfl)

end

end Owned

/-! ## The line -/

namespace Queued

theorem congr (hq : Queued l f) (hl : m.line = l.line)
    (hg : ∀ b, (g b).inLine = (f b).inLine) : Queued m g := by
  refine ⟨hl ▸ hq.once, fun b => ?_⟩
  rw [hl, hg]
  exact hq.mem b

theorem deed (hq : Queued l f) (hd : Deed a (l, f a) (m, h)) :
    Queued m (Function.update f a h) := by
  cases hd with
  | quiet hquiet => exact hq.congr hquiet.line (same_hand Hand.inLine rfl)
  | teardown reason =>
    exact hq.congr (line_perform l (.teardown reason)) (same_hand Hand.inLine rfl)
  | join hh =>
    have hno : a ∉ l.line := fun ha => by
      rw [(hq.mem a).1 ha] at hh
      cases hh
    refine ⟨?_, fun b => ?_⟩
    · refine List.nodup_append.2 ⟨hq.once, by simp, fun b hb c hc he => ?_⟩
      rw [List.mem_singleton] at hc
      exact hno (hc ▸ he ▸ hb)
    · by_cases hb : b = a
      · simp [joinLine, hb]
      · simp [joinLine, hb, hq.mem b]
  | leave =>
    refine ⟨hq.once.filter _, fun b => ?_⟩
    by_cases hb : b = a
    · simp [leaveLine, hb]
    · simp [leaveLine, hb, hq.mem b]
  | register | forget | subscribe | discard | handOver | ask | learn =>
    exact hq.congr rfl (same_hand Hand.inLine rfl)

end Queued

/-! ## The question for job reports -/

namespace Asked

theorem congr (hq : Asked l f) (hj : m.jobStream = l.jobStream)
    (hg : ∀ b, (g b).asks = (f b).asks) : Asked m g := by
  intro b
  rw [hj, hg]
  exact hq b

theorem deed (hq : Asked l f) (hd : Deed a (l, f a) (m, h)) :
    Asked m (Function.update f a h) := by
  cases hd with
  | quiet hquiet => exact hq.congr hquiet.jobStream (same_hand Hand.asks rfl)
  | teardown reason =>
    exact hq.congr (jobStream_perform l (.teardown reason)) (same_hand Hand.asks rfl)
  | @ask _ _ task ha hj =>
    subst ha
    intro b
    by_cases hb : b = .caller task
    · subst hb
      simp
    · rw [Function.update_of_ne hb, hq b]
      constructor
      · rintro ⟨t, -, ht⟩
        rw [hj] at ht
        cases ht
      · rintro ⟨t, rfl, ht⟩
        cases ht
        exact absurd rfl hb
  | learn s hh hs =>
    obtain ⟨task, rfl, hj⟩ := (hq a).1 hh
    intro b
    have hno : ¬ ∃ t, b = .caller t ∧ s = .asking t := fun ⟨t, _, ht⟩ => hs t ht
    by_cases hb : b = .caller task
    · subst hb
      simpa using hno
    · rw [Function.update_of_ne hb, hq b]
      refine ⟨?_, fun hb' => absurd hb' hno⟩
      rintro ⟨t, rfl, ht⟩
      rw [hj] at ht
      cases ht
      exact absurd rfl hb
  | register | forget | subscribe | discard | handOver | join | leave =>
    exact hq.congr rfl (same_hand Hand.asks rfl)

end Asked

/-! ## Keys -/

namespace Keyed

theorem congr (hk : Keyed l f) (hl : l.fanout.lastKey ≤ m.fanout.lastKey)
    (hg : ∀ b s, (g b).subscription = some s → (f b).subscription = some s) : Keyed m g :=
  ⟨fun b s hb => Nat.le_trans (hk.issued b s (hg b s hb)) hl,
    fun b b' s s' hb hb' => hk.once b b' s s' (hg b s hb) (hg b' s' hb')⟩

theorem lastKey_discard (f : Fanout) (s : Subscription) :
    (f.discard s).lastKey = f.lastKey := Fanout.lastKey_step f (.act s .discard)

theorem lastKey_perform (l : Link) (o : Op) :
    l.fanout.lastKey ≤ (l.perform o).fanout.lastKey := by
  rw [fanout_perform]
  split
  · split
    · exact Nat.le_refl _
    · exact Fanout.lastKey_le_step l.fanout .closeAll
  · exact Fanout.lastKey_le_step l.fanout _
  · exact Nat.le_refl _

theorem deed (hk : Keyed l f) (hd : Deed a (l, f a) (m, h)) :
    Keyed m (Function.update f a h) := by
  have hsame : ∀ h : Hand, (h.subscription = (f a).subscription ∨ h.subscription = none) →
      ∀ b s, (Function.update f a h b).subscription = some s → (f b).subscription = some s := by
    intro h hh b s hs
    by_cases hb : b = a
    · subst hb
      rw [Function.update_self] at hs
      rcases hh with hh | hh
      · rwa [← hh]
      · rw [hh] at hs
        cases hs
    · rwa [Function.update_of_ne hb] at hs
  cases hd with
  | quiet hquiet => exact hk.congr (Nat.le_of_eq (by rw [hquiet.fanout])) (hsame _ (.inl rfl))
  | teardown reason =>
    exact hk.congr (lastKey_perform l (.teardown reason)) (hsame _ (.inl rfl))
  | subscribe c capacity hc hh =>
    have hlast : (l.perform (.subscribe c capacity)).fanout.lastKey = l.fanout.lastKey + 1 := by
      rw [fanout_perform]
      exact (Fanout.lastKey_step l.fanout (.register c capacity)).trans (by simp [hc])
    -- the key is new, so it is in no other hand
    have hhand : ∀ b s, (Function.update f a
        { f a with subscription := some ⟨c, l.fanout.lastKey + 1⟩ } b).subscription = some s →
        (b = a ∧ s.key = l.fanout.lastKey + 1) ∨
          ((f b).subscription = some s ∧ s.key ≤ l.fanout.lastKey) := by
      intro b s hs
      by_cases hb : b = a
      · subst hb
        rw [Function.update_self] at hs
        cases hs
        exact .inl ⟨rfl, rfl⟩
      · rw [Function.update_of_ne hb] at hs
        exact .inr ⟨hs, hk.issued b s hs⟩
    refine ⟨fun b s hs => ?_, fun b b' s s' hs hs' he => ?_⟩
    · rw [hlast]
      rcases hhand b s hs with ⟨-, hs⟩ | ⟨-, hs⟩ <;> omega
    · rcases hhand b s hs with ⟨rfl, hs⟩ | ⟨hb, hs⟩ <;>
        rcases hhand b' s' hs' with ⟨rfl, hs'⟩ | ⟨hb', hs'⟩
      · rfl
      · omega
      · omega
      · exact hk.once b b' s s' hb hb' he
  | @discard _ _ s hh =>
    exact hk.congr (Nat.le_of_eq (lastKey_discard l.fanout s).symm) (hsame _ (.inr rfl))
  | handOver => exact hk.congr (Nat.le_refl _) (hsame _ (.inr rfl))
  | register | forget | join | leave | ask | learn =>
    exact hk.congr (Nat.le_refl _) (hsame _ (.inl rfl))

end Keyed

/-! ## All of it -/

theorem Kept.congr (hk : Kept l f) (hcalls : m.calls = l.calls) (hslots : m.slots = l.slots)
    (hline : m.line = l.line) (hjobs : m.jobStream = l.jobStream)
    (hfanout : m.fanout = l.fanout) : Kept m f :=
  ⟨hk.owned.congr hcalls hslots fun _ => rfl, hk.queued.congr hline fun _ => rfl,
    hk.asked.congr hjobs fun _ => rfl,
    hk.keyed.congr (Nat.le_of_eq (by rw [hfanout])) fun _ _ hs => hs⟩

theorem Kept.deed (hk : Kept l f) (hd : Deed a (l, f a) (m, h)) : Kept m (Function.update f a h) :=
  ⟨hk.owned.deed hd, hk.queued.deed hd, hk.asked.deed hd, hk.keyed.deed hd⟩

theorem Kept.deeds (hk : Kept l f) (hd : Deeds a (l, f a) (m, h)) :
    Kept m (Function.update f a h) := by
  refine hd.keep (P := fun m h => Kept m (Function.update f a h))
    (by rwa [Function.update_eq_self]) ?_
  intro m h n h' ih hd
  have hh : Function.update f a h a = h := Function.update_self ..
  have hn := ih.deed (a := a) (by rw [hh]; exact hd)
  rwa [Function.update_idem] at hn

theorem Tidy.turn (hl : l.Tidy) (ht : Turn a l m) : m.Tidy := by
  have hhand : Function.update l.hand a (m.hand a) = m.hand := by
    funext b
    by_cases hb : b = a
    · rw [hb, Function.update_self]
    · rw [Function.update_of_ne hb, hand_eq (Deeds.others ht hb)]
  have := Kept.deeds hl ht
  rwa [hhand] at this

/-- What an event brings that is nobody's turn is put into no hand. -/
theorem Tidy.perform (hl : l.Tidy) {e : Event} {o : Op} (ho : Brings l e o) :
    (l.perform o).Tidy := by
  have hhand : (l.perform o).hand = l.hand := funext fun b => hand_eq (samePlace_perform l o b)
  have hplain : (∀ kind, o ≠ .register kind) ∧ ∀ id, o ≠ .cancel id := by
    cases ho with
    | act s act => simp
    | teardown reason => simp
    | frame _ _ ho =>
      refine ⟨?_, ?_⟩ <;> rintro _ rfl <;> cases Op.isInbound_of_text ho
  rw [Tidy, hhand]
  exact ⟨hl.owned.perform hplain.1 hplain.2, hl.queued.congr (line_perform l o) fun _ => rfl,
    hl.asked.congr (jobStream_perform l o) fun _ => rfl,
    hl.keyed.congr (Keyed.lastKey_perform l o) fun _ _ hs => hs⟩

theorem Tidy.event (hl : l.Tidy) (e : Event) : (l.step e).Tidy := by
  cases ha : e.actor? with
  | some a => exact hl.turn (step_turn ha)
  | none =>
    rcases step_shared (l := l) ha with ⟨o, ho, hs⟩ | ⟨fired, hs⟩ <;> rw [hs]
    · exact hl.perform ho
    · have hhand : ({ l with fired }).hand = l.hand := funext fun b => by cases b <;> rfl
      rw [Tidy, hhand]
      exact Kept.congr hl rfl rfl rfl rfl rfl

theorem Tidy.run (hl : l.Tidy) (events : List Event) : (l.run events).Tidy := by
  induction events generalizing l with
  | nil => exact hl
  | cons e events ih => exact ih (hl.event e)

theorem Tidy.ofSettings (settings : Settings) : (Link.ofSettings settings).Tidy := by
  have hhand : ∀ a, (Link.ofSettings settings).hand a = {} := by
    intro a
    cases a <;> rfl
  refine ⟨⟨.empty, fun id => ?_, ?_, fun id hid => ?_, ?_, ?_⟩, ⟨List.nodup_nil, fun a => ?_⟩,
    fun a => ?_, ⟨?_, ?_⟩⟩
  · constructor
    · rintro ((hp | hw) | hs)
      · cases hp
      · cases hw
      · cases hs
    · rintro ⟨a, kind, ha⟩
      rw [hhand] at ha
      cases ha
  · intro a b id kind kind' ha
    rw [hhand] at ha
    cases ha
  · rcases hid with (hp | hw) | hs
    · cases hp
    · cases hw
    · cases hs
  · intro a id kind kind' ha
    rw [hhand] at ha
    cases ha
  · intro a id kind ha
    rw [hhand] at ha
    cases ha
  · rw [hhand]
    simp [Link.ofSettings]
  · rw [hhand]
    simp [Link.ofSettings]
  · intro a s ha
    rw [hhand] at ha
    cases ha
  · intro a b s s' ha
    rw [hhand] at ha
    cases ha

/-- **Nothing is left lying about.** -/
theorem Reachable.tidy (hl : l.Reachable) : l.Tidy := by
  obtain ⟨settings, events, rfl⟩ := hl
  exact (Tidy.ofSettings settings).run events

end ServerLink.Link
