import ServerLink.Proofs.Calls.Ledger

/-!
# Every plain call ends by its own answer

Ids are never handed out twice, and no slot ends twice. How a plain call ends is decided by the
first event after its admission that is its answer, its cancel or the end of all calls
(`endsOf_plain`); nothing else in the run has a part in it (`plain_calls_end_by_their_own`).
-/

namespace ServerLink.Calls

/-- Event `n` of a run from the start admits a call of this kind under this id. -/
def Admits (events : List Event) (n : Nat) (kind : Call.Kind) (id : Nat) : Prop :=
  events[n]? = some (.register kind) ∧
    ∃ c, (run {} (events.take n)).1.register kind = .ok (id, c)

namespace Event

def isRegister : Event → Bool
  | .register _ => true
  | _ => false

/-- How a pending call ends by this event: by its answer, by its cancel, or with all calls. -/
def decides (id : Nat) : Event → Option Slot.End
  | .answer r => if r.id = id then some (.filled (r.outcome.mapError .rpc)) else none
  | .cancel call => if call = id then some .abandoned else none
  | .failAll reason => some (.filled (.error reason))
  | .register _ | .report _ => none

/-- The event is no report, and no answer or cancel of another call. -/
def concerns (id : Nat) : Event → Bool
  | .register _ | .failAll _ => true
  | .answer r => r.id = id
  | .cancel call => call = id
  | .report _ => false

end Event

variable {c : Calls} {id : Nat} {kind : Call.Kind}

/-! ## A call that is pending -/

/-- Until an event decides about it, a pending call stays pending. -/
theorem pending_step (h : c.Inv) (hk : c.pending.lookup id = some kind) {e : Event}
    (hd : e.decides id = none) : (c.step e).1.pending.lookup id = some kind := by
  cases e with
  | register kind' =>
    have hopen := h.isOpen (mem_held.2 (outstanding_of_pending hk))
    have hlt := outstanding_lt h (outstanding_of_pending hk)
    simp only [step, register_ok hopen]
    rw [Table.lookup_insert_ne (Nat.ne_of_lt hlt), hk]
  | answer r =>
    have hne : id ≠ r.id := by
      intro he
      simp [Event.decides, he] at hd
    rcases step_answer c r with ⟨-, hs⟩ | ⟨kind', -, -, hs⟩ | ⟨job, -, hs⟩ <;> rw [hs]
    · exact hk
    · exact (Table.lookup_erase_ne hne).trans hk
    · exact (Table.lookup_erase_ne hne).trans hk
  | report e => exact hk
  | cancel call =>
    have hne : id ≠ call := by
      intro he
      simp [Event.decides, he] at hd
    exact (Table.lookup_erase_ne hne).trans hk
  | failAll reason => simp [Event.decides] at hd

theorem direct_plain (r : Response) : direct .plain r = r.outcome.mapError .rpc := by
  unfold direct
  cases r.outcome <;> rfl

/-- How a plain call ends that is pending: as the first event says that decides about it. -/
theorem endsOf_plain (h : c.Inv) (hk : c.pending.lookup id = some .plain) (es : List Event) :
    endsOf id (c.run es).2 = (es.findSome? (Event.decides id)).toList := by
  refine endsOf_run_eq_findSome (fun c => c.pending.lookup id = some .plain) (fun _ _ => True)
    (fun c hc => outstanding_of_pending hc) ?_ ?_ h hk es (fun _ _ _ _ => trivial)
  · intro c e h hk _ hd
    exact pending_step h hk hd
  · intro c e x h hk _ hd
    cases e with
    | register kind => simp [Event.decides] at hd
    | answer r =>
      simp only [Event.decides, Option.ite_none_right_eq_some, Option.some.injEq] at hd
      obtain ⟨rfl, rfl⟩ := hd
      rcases step_answer c r with ⟨hn, -⟩ | ⟨kind, hk', -, hs⟩ | ⟨job, ⟨hk', -⟩, -⟩
      · rw [hk] at hn; cases hn
      · rw [hk] at hk'; cases hk'
        rw [hs, endsOf_filled, if_pos rfl, direct_plain]
      · rw [hk] at hk'; cases hk'
    | report e => simp [Event.decides] at hd
    | cancel call =>
      simp only [Event.decides, Option.ite_none_right_eq_some, Option.some.injEq] at hd
      obtain ⟨rfl, rfl⟩ := hd
      exact endsOf_cancel h (outstanding_of_pending hk)
    | failAll reason =>
      simp only [Event.decides, Option.some.injEq] at hd
      subst hd
      exact endsOf_failAll h (outstanding_of_pending hk) reason

/-! ## Admissions -/

/-- An admission hands out the next id, while calls are admitted. -/
theorem register_eq_ok {c' : Calls} (h : c.register kind = .ok (id, c')) :
    c.closed = none ∧ id = c.nextId ∧ c' = (c.step (.register kind)).1 := by
  cases hc : c.closed with
  | some reason => rw [register_error hc] at h; cases h
  | none =>
    have hs : (c.step (.register kind)).1 = c' := by simp only [step, h]
    rw [register_ok hc] at h
    cases h
    exact ⟨rfl, rfl, hs.symm⟩

theorem pending_register (hc : c.closed = none) :
    (c.step (.register kind)).1.pending.lookup c.nextId = some kind := by
  simp only [step, register_ok hc]
  exact Table.lookup_insert_self

section
variable {events : List Event} {n : Nat}

/-- An admission splits the run. -/
theorem Admits.split (h : Admits events n kind id) :
    events = events.take n ++ .register kind :: events.drop (n + 1) ∧
      (run {} (events.take n)).1.closed = none ∧ id = (run {} (events.take n)).1.nextId := by
  obtain ⟨hn, c', hr⟩ := h
  obtain ⟨hlt, hget⟩ := List.getElem?_eq_some_iff.1 hn
  refine ⟨?_, (register_eq_ok hr).1, (register_eq_ok hr).2.1⟩
  rw [← hget, ← List.drop_eq_getElem_cons hlt, List.take_append_drop]

theorem admits_of_split {before after : List Event}
    (hc : (run {} before).1.closed = none) :
    Admits (before ++ .register kind :: after) before.length kind (run {} before).1.nextId := by
  refine ⟨by simp, ?_⟩
  rw [List.take_left' rfl, register_ok hc]
  exact ⟨_, rfl⟩

/-- From its admission on, an id is taken. -/
theorem Admits.lt_nextId (h : Admits events n kind id) {m : Nat} (hm : n < m) :
    id < (run {} (events.take m)).1.nextId := by
  obtain ⟨he, hc, rfl⟩ := h.split
  have hlt : n < events.length := by
    have := congrArg List.length he
    simp only [List.length_append, List.length_take, List.length_cons, List.length_drop] at this
    omega
  have htake : events.take m =
      events.take n ++ .register kind :: (events.drop (n + 1)).take (m - (n + 1)) := by
    conv_lhs => rw [he]
    rw [List.take_append, List.take_of_length_le (by simp; omega), List.length_take,
      Nat.min_eq_left (by omega), show m - n = (m - (n + 1)) + 1 by omega, List.take_succ_cons]
  rw [htake, run_append, run_cons]
  refine Nat.lt_of_lt_of_le ?_ (nextId_le_run _ _)
  rw [nextId_step, if_pos hc]
  exact Nat.lt_succ_self _

theorem admits_unique {kind' : Call.Kind} {m : Nat} (h : Admits events n kind id)
    (h' : Admits events m kind' id) : n = m := by
  rcases Nat.lt_trichotomy n m with hlt | heq | hgt
  · have := h.lt_nextId hlt
    rw [h'.split.2.2] at this
    exact absurd this (Nat.lt_irrefl _)
  · exact heq
  · have := h'.lt_nextId hgt
    rw [h.split.2.2] at this
    exact absurd this (Nat.lt_irrefl _)

theorem nextId_run_le (c : Calls) (es : List Event) :
    (c.run es).1.nextId ≤ c.nextId + es.countP Event.isRegister := by
  induction es generalizing c with
  | nil => exact Nat.le_refl _
  | cons e es ih =>
    have h1 := ih (c.step e).1
    have h2 : (c.step e).1.nextId ≤ c.nextId + if e.isRegister then 1 else 0 := by
      rw [nextId_step]
      cases e with
      | register kind => simp only [Event.isRegister, ↓reduceIte]; split <;> omega
      | _ => exact Nat.le_refl _
    rw [run_cons, List.countP_cons]
    simp only at h1 ⊢
    omega

/-- Ids are small numbers: none is larger than the number of registrations. -/
theorem Admits.le_countP (h : Admits events n kind id) :
    id ≤ events.countP Event.isRegister := by
  obtain ⟨he, -, rfl⟩ := h.split
  have h1 := nextId_run_le {} (events.take n)
  have h2 := congrArg (List.countP Event.isRegister) he
  rw [List.countP_append, List.countP_cons_of_pos rfl] at h2
  have h3 : ({} : Calls).nextId = 1 := rfl
  omega

/-- How a plain call ends that is admitted between these events: as the first event afterwards says
that decides about it. -/
theorem endsOf_admitted {before : List Event} (hc : (run {} before).1.closed = none)
    (after : List Event) :
    endsOf (run {} before).1.nextId (run {} (before ++ .register .plain :: after)).2 =
      (after.findSome? (Event.decides (run {} before).1.nextId)).toList := by
  -- nothing has ended under an id that is not handed out yet
  have hbefore : endsOf (run {} before).1.nextId (run {} before).2 = [] := by
    have hl := ledger Inv.empty before (run {} before).1.nextId
    have hzero : ({} : Calls).held.count (run {} before).1.nextId = 0 := rfl
    rw [if_neg (by omega), hzero] at hl
    exact List.length_eq_zero_iff.1 (by omega)
  have hreg : ((run {} before).1.step (.register .plain)).2 = [] := by
    simp only [step, register_ok hc]
  rw [run_append, run_cons, endsOf_append, endsOf_append, hbefore, hreg, endsOf_nil,
    List.nil_append, List.nil_append]
  exact endsOf_plain ((Inv.empty.run before).step _) (pending_register hc) after

theorem Admits.endsOf (h : Admits events n .plain id) : endsOf id (run {} events).2 =
    ((events.drop (n + 1)).findSome? (Event.decides id)).toList := by
  obtain ⟨he, hc, hid⟩ := h.split
  have := endsOf_admitted hc (events.drop (n + 1))
  rwa [← he, ← hid] at this

end

/-! ## What has no part in it -/

/-- What admissions depend on. -/
def gate (c : Calls) : Nat × Option LinkError := (c.nextId, c.closed)

def gateStep (g : Nat × Option LinkError) : Event → Nat × Option LinkError
  | .register _ => (if g.2 = none then g.1 + 1 else g.1, g.2)
  | .failAll reason => (g.1, some (g.2.getD reason))
  | .answer _ | .report _ | .cancel _ => g

theorem gate_run (c : Calls) (es : List Event) :
    (c.run es).1.gate = es.foldl gateStep c.gate := by
  induction es generalizing c with
  | nil => rfl
  | cons e es ih =>
    have hs : (c.step e).1.gate = gateStep c.gate e := by
      simp only [gate, nextId_step, closed_step]
      cases e <;> rfl
    rw [run_cons, List.foldl_cons, ← hs]
    exact ih _

/-- Runs that agree in the events of concern to a call admit alike. -/
theorem gate_run_congr {es fs : List Event}
    (hf : es.filter (Event.concerns id) = fs.filter (Event.concerns id)) :
    (c.run es).1.gate = (c.run fs).1.gate := by
  have hskip : ∀ es : List Event,
      es.foldl gateStep c.gate = (es.filter (Event.concerns id)).foldl gateStep c.gate := by
    intro es
    rw [List.foldl_filter]
    congr 1
    funext g e
    cases e <;> simp [gateStep, Event.concerns]
  rw [gate_run, gate_run, hskip es, hskip fs, hf]

theorem findSome_decides_congr {es fs : List Event}
    (hf : es.filter (Event.concerns id) = fs.filter (Event.concerns id)) :
    es.findSome? (Event.decides id) = fs.findSome? (Event.decides id) := by
  have hskip : ∀ es : List Event, es.findSome? (Event.decides id) =
      (es.filter (Event.concerns id)).findSome? (Event.decides id) := by
    intro es
    induction es with
    | nil => rfl
    | cons e es ih =>
      rw [List.findSome?_cons, List.filter_cons]
      cases he : e.concerns id with
      | true => rw [if_pos rfl, List.findSome?_cons, ih]
      | false =>
        have hd : e.decides id = none := by
          cases e <;> simp_all [Event.concerns, Event.decides]
        rw [if_neg (by simp), hd]
        exact ih
  rw [hskip es, hskip fs, hf]

/-- A run with the same events of concern admits the call as well, and ends it in the same way. -/
theorem Admits.congr {events others : List Event} {n : Nat} (h : Admits events n .plain id)
    (hf : others.filter (Event.concerns id) = events.filter (Event.concerns id)) :
    (∃ m, Admits others m .plain id) ∧
      ServerLink.endsOf id (run {} others).2 = ServerLink.endsOf id (run {} events).2 := by
  obtain ⟨he, hc, hid⟩ := h.split
  generalize events.take n = before at he hc hid
  generalize events.drop (n + 1) = after at he
  subst he
  rw [List.filter_append, List.filter_cons_of_pos rfl] at hf
  obtain ⟨before', rest, rfl, hb, hr⟩ := List.filter_eq_append_iff.1 hf
  obtain ⟨skipped, after', rfl, hs, -, ha⟩ := List.filter_eq_cons_iff.1 hr
  have hb' : (before' ++ skipped).filter (Event.concerns id) =
      before.filter (Event.concerns id) := by
    rw [List.filter_append, List.filter_eq_nil_iff.2 hs, List.append_nil, hb]
  have hg := gate_run_congr (c := {}) hb'
  have hc' : (run {} (before' ++ skipped)).1.closed = none := (congrArg Prod.snd hg).trans hc
  have hid' : (run {} (before' ++ skipped)).1.nextId = id :=
    (congrArg Prod.fst hg).trans hid.symm
  rw [← List.append_assoc]
  refine ⟨⟨_, hid' ▸ admits_of_split hc'⟩, ?_⟩
  have h1 := endsOf_admitted hc' after'
  have h2 := endsOf_admitted hc after
  rw [hid'] at h1
  rw [← hid] at h2
  rw [h1, h2, findSome_decides_congr ha]

/-- **Correlation.** In any run, an id is handed out once, and none is larger than the number of
registrations; a slot ends once at most; a plain call ends as the first event after its admission
says that is its answer, its cancel or the end of all calls; and every run with the same
registrations, ends of all calls, and answers and cancels of its id ends it in the same way. -/
theorem plain_calls_end_by_their_own (events : List Event) :
    (∀ n m kind kind' id, Admits events n kind id → Admits events m kind' id → n = m) ∧
    (∀ n kind id, Admits events n kind id → id ≤ events.countP Event.isRegister) ∧
    (∀ id, (endsOf id (run {} events).2).length ≤ 1) ∧
    (∀ n id, Admits events n .plain id → endsOf id (run {} events).2 =
      ((events.drop (n + 1)).findSome? (Event.decides id)).toList) ∧
    ∀ others n id, Admits events n .plain id →
      others.filter (Event.concerns id) = events.filter (Event.concerns id) →
      (∃ m, Admits others m .plain id) ∧
        endsOf id (run {} others).2 = endsOf id (run {} events).2 := by
  refine ⟨fun n m kind kind' id h h' => admits_unique h h', fun n kind id h => h.le_countP,
    fun id => ?_, fun n id h => h.endsOf, fun others n id h hf => h.congr hf⟩
  have hl := ledger Inv.empty events id
  have hzero : ({} : Calls).held.count id = 0 := rfl
  split at hl <;> omega

/-- Two calls whose answers cross, with a job's report between them and one answer twice. -/
def crossedAnswers : List Event :=
  [.register .plain, .register .plain, .answer (.success 2 (.string "b")),
    .report { id := 7, state := .success }, .answer (.success 1 (.string "a")),
    .answer (.success 1 (.string "c"))]

theorem crossed_answers_reach_their_calls :
    Admits crossedAnswers 0 .plain 1 ∧
      endsOf 1 (run {} crossedAnswers).2 = [.filled (.ok (.string "a"))] := by
  have h : Admits crossedAnswers 0 .plain 1 := ⟨rfl, _, rfl⟩
  exact ⟨h, ((plain_calls_end_by_their_own crossedAnswers).2.2.2.1 0 1 h).trans rfl⟩

end ServerLink.Calls
