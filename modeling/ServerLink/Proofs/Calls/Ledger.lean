import ServerLink.Calls
import ServerLink.Proofs.Job.Watch

/-!
# The ledger of calls

What one event does to the calls is said once, in `step_answer`, `attach_cases` and their like.
From it follow the invariant of every run (`Calls.Inv`) and the ledger: a call that was admitted
is at every time either outstanding, in one place, or has ended, once (`ledger_step`, `ledger`).
-/

namespace ServerLink

namespace Calls

/-- The calls that have not ended, each as often as the tables hold it. -/
def held (c : Calls) : List Nat := Table.keys c.pending ++ Table.values c.jobs.waiting

theorem mem_held {c : Calls} {id : Nat} : id ∈ c.held ↔ c.Outstanding id := List.mem_append

/-- A state that calls can get into. -/
def Reachable (c : Calls) : Prop := ∃ events, c = (run {} events).1

/-- The response answers a pending job call and names this job. -/
def Starts (c : Calls) (r : Response) (job : Nat) : Prop :=
  c.pending.lookup r.id = some .job ∧ ∃ v, r.outcome = .ok v ∧ Job.id? v = some job

/-- What a call comes to whose answer names no job. -/
def direct (kind : Call.Kind) (r : Response) : Outcome :=
  match r.outcome, kind with
  | .error e, _ => .error (.rpc e)
  | .ok v, .plain => .ok v
  | .ok v, .job => .error (.protocol ("expected a job id, got " ++ v.render))

/-- The call's answer has come. -/
def answered (c : Calls) (id : Nat) : Calls := { c with pending := Table.erase c.pending id }

variable {c : Calls} {id : Nat}

/-! ## What one event does -/

theorem register_ok {kind : Call.Kind} (h : c.closed = none) :
    c.register kind = .ok (c.nextId,
      { c with nextId := c.nextId + 1, pending := Table.insert c.pending c.nextId kind }) := by
  simp only [register, h]

theorem register_error {kind : Call.Kind} {reason : LinkError} (h : c.closed = some reason) :
    c.register kind = .error reason := by simp only [register, h]

/-- An answer has no pending call, or ends it, or starts the wait for a job. -/
theorem step_answer (c : Calls) (r : Response) :
    (c.pending.lookup r.id = none ∧ c.step (.answer r) = (c, [])) ∨
    (∃ kind, c.pending.lookup r.id = some kind ∧ (∀ job, ¬ c.Starts r job) ∧
      c.step (.answer r) = (c.answered r.id, [.filled r.id (direct kind r)])) ∨
    (∃ job, c.Starts r job ∧ c.step (.answer r) =
      ({ c.answered r.id with jobs := (c.jobs.attach job r.id).1 },
        (c.jobs.attach job r.id).2)) := by
  cases hk : c.pending.lookup r.id with
  | none => exact .inl ⟨rfl, by simp [step, answer, hk]⟩
  | some kind =>
    right
    cases ho : r.outcome with
    | error e =>
      refine .inl ⟨kind, rfl, fun job hs => ?_, ?_⟩
      · obtain ⟨-, v, hv, -⟩ := hs
        rw [ho] at hv; cases hv
      · simp [step, answer, hk, settle, ho, direct, answered]
    | ok v =>
      cases kind with
      | plain =>
        refine .inl ⟨.plain, rfl, fun job hs => ?_, ?_⟩
        · have := hs.1
          rw [hk] at this; cases this
        · simp [step, answer, hk, settle, ho, direct, answered]
      | job =>
        cases hj : Job.id? v with
        | none =>
          refine .inl ⟨.job, rfl, fun job hs => ?_, ?_⟩
          · obtain ⟨-, w, hw, hj'⟩ := hs
            rw [ho] at hw; cases hw
            rw [hj] at hj'; cases hj'
          · simp [step, answer, hk, settle, ho, hj, direct, answered]
        | some job =>
          exact .inr ⟨job, ⟨hk, v, ho, hj⟩, by simp [step, answer, hk, settle, ho, hj, answered]⟩

/-- A report does not end its job, or ends the call that waits for it, or finds nobody waiting. -/
theorem step_report (c : Calls) (e : Job.Report) :
    (e.state.isTerminal = false ∧ c.step (.report e) = (c, [])) ∨
    (e.state.isTerminal = true ∧ ∃ call, c.jobs.waiting.lookup e.id = some call ∧
      c.step (.report e) = ({ c with jobs := { c.jobs with
        waiting := Table.erase c.jobs.waiting e.id } }, [.filled call e.outcome])) ∨
    (e.state.isTerminal = true ∧ c.jobs.waiting.lookup e.id = none ∧
      c.step (.report e) = ({ c with jobs := c.jobs.remember e }, [])) := by
  cases ht : e.state.isTerminal with
  | false => exact .inl ⟨rfl, by simp [step, report, Job.Watch.report, ht]⟩
  | true =>
    right
    cases hw : c.jobs.waiting.lookup e.id with
    | none => exact .inr ⟨rfl, rfl, by simp [step, report, Job.Watch.report, ht, hw]⟩
    | some call =>
      exact .inl ⟨rfl, call, rfl, by simp [step, report, Job.Watch.report, ht, hw]⟩

theorem step_failAll {reason : LinkError} (h : c.closed = none) :
    c.step (.failAll reason) =
      ({ c with pending := [], jobs := {}, closed := some reason },
        c.held.map fun id => .filled id (.error reason)) := by
  simp [step, failAll, h, Job.Watch.failAll, held, Table.keys, Table.values, Function.comp_def]

theorem step_failAll_closed {reason why : LinkError} (h : c.closed = some why) :
    c.step (.failAll reason) = (c, []) := by simp [step, failAll, h]

/-! ## The invariant -/

/-- What holds of the calls at any time. -/
structure Inv (c : Calls) : Prop where
  /-- No call is held twice, nor in two places. -/
  once : c.held.Nodup
  below : ∀ id ∈ c.held, id < c.nextId
  closed : c.closed.isSome → c.pending = [] ∧ c.jobs.waiting = []
  jobs : c.jobs.Inv

namespace Inv

theorem empty : Inv {} where
  once := List.nodup_nil
  below := by simp [held, Table.keys, Table.values]
  closed := fun h => by simp at h
  jobs := .empty

variable (h : c.Inv)
include h

theorem pending : (Table.keys c.pending).Nodup := h.once.of_append_left

theorem isOpen (hid : id ∈ c.held) : c.closed = none := by
  cases hc : c.closed with
  | none => rfl
  | some reason =>
    obtain ⟨hp, hw⟩ := h.closed (by rw [hc]; rfl)
    simp [held, hp, hw, Table.keys, Table.values] at hid

end Inv

/-! ## The ledger of one event -/

theorem held_answered (h : c.Inv) {kind : Call.Kind} {call : Nat}
    (hk : c.pending.lookup call = some kind) :
    c.held.count id = (c.answered call).held.count id + [call].count id := by
  simp only [held, answered, List.count_append, Table.count_keys h.pending hk]
  omega

/-- An event ends as many slots of a call as it takes the call out of the tables, and puts a call
into them only when it admits it. -/
theorem ledger_step (h : c.Inv) (e : Event) (id : Nat) :
    (c.step e).1.held.count id + (endsOf id (c.step e).2).length =
      c.held.count id + if c.nextId ≤ id ∧ id < (c.step e).1.nextId then 1 else 0 := by
  have hsame : ¬ (c.nextId ≤ id ∧ id < c.nextId) := by omega
  cases e with
  | register kind =>
    cases hc : c.closed with
    | some reason => simp [step, register_error hc, hsame]
    | none =>
      have hn : c.nextId ∉ Table.keys c.pending := fun hm =>
        Nat.lt_irrefl _ (h.below _ (List.mem_append_left _ hm))
      simp only [step, register_ok hc, held, Table.keys_insert, Table.erase_of_not_mem hn,
        List.count_append, List.count_singleton, endsOf_nil, List.length_nil, beq_iff_eq]
      split <;> split <;> omega
  | answer r =>
    rcases step_answer c r with ⟨-, hs⟩ | ⟨kind, hk, -, hs⟩ | ⟨job, ⟨hk, -⟩, hs⟩ <;> rw [hs]
    · simp [hsame]
    · rw [held_answered h hk, endsOf_filled]
      simp only [List.count_singleton, beq_iff_eq, answered, hsame, ↓reduceIte]
      split <;> simp
    · rw [held_answered h hk]
      have := Job.Watch.ledger_attach h.jobs.once job r.id id
      simp only [held, answered, List.count_append, hsame, ↓reduceIte] at this ⊢
      omega
  | report e =>
    rcases step_report c e with ⟨-, hs⟩ | ⟨-, call, hl, hs⟩ | ⟨-, -, hs⟩ <;> rw [hs]
    · simp [hsame]
    · simp only [held, List.count_append, Table.count_values h.jobs.once hl, endsOf_filled,
        List.count_singleton, beq_iff_eq, hsame, ↓reduceIte]
      split
      · simp; omega
      · simp
    · simp [held, Job.Watch.remember, hsame]
  | cancel call =>
    have hf := Job.Watch.ledger_forget c.jobs call id
    simp only [step, cancel, held, List.count_append, endsOf_append, List.length_append,
      hsame, ↓reduceIte]
    cases hl : c.pending.lookup call with
    | none =>
      rw [Table.erase_of_not_mem (Table.lookup_eq_none.1 hl)]
      simp only [Option.map_none, Option.toList_none, endsOf_nil, List.length_nil]
      omega
    | some kind =>
      rw [Table.count_keys h.pending hl]
      simp only [Option.map_some, Option.toList_some, endsOf_abandoned, List.count_singleton,
        beq_iff_eq]
      split <;> simp <;> omega
  | failAll reason =>
    cases hc : c.closed with
    | some why => rw [step_failAll_closed hc]; simp [hsame]
    | none =>
      rw [step_failAll hc, length_endsOf]
      simp [held, Table.keys, Table.values, Settlement.filled, Function.comp_def, hsame]

/-! ## What an event keeps -/

theorem nextId_step (c : Calls) (e : Event) :
    (c.step e).1.nextId = match e with
      | .register _ => if c.closed = none then c.nextId + 1 else c.nextId
      | _ => c.nextId := by
  cases e with
  | register kind =>
    cases hc : c.closed with
    | none => simp [step, register_ok hc]
    | some reason => simp [step, register_error hc]
  | answer r =>
    rcases step_answer c r with ⟨-, hs⟩ | ⟨kind, -, -, hs⟩ | ⟨job, -, hs⟩ <;> rw [hs] <;> rfl
  | report e => rfl
  | cancel call => rfl
  | failAll reason =>
    cases hc : c.closed with
    | none => rw [step_failAll hc]
    | some why => rw [step_failAll_closed hc]

theorem closed_step (c : Calls) (e : Event) :
    (c.step e).1.closed = match e with
      | .failAll reason => some (c.closed.getD reason)
      | _ => c.closed := by
  cases e with
  | register kind =>
    cases hc : c.closed with
    | none => simp [step, register_ok hc, hc]
    | some reason => simp [step, register_error hc, hc]
  | answer r =>
    rcases step_answer c r with ⟨-, hs⟩ | ⟨kind, -, -, hs⟩ | ⟨job, -, hs⟩ <;> rw [hs] <;> rfl
  | report e => rfl
  | cancel call => rfl
  | failAll reason =>
    cases hc : c.closed with
    | none => rw [step_failAll hc]; rfl
    | some why => rw [step_failAll_closed hc, hc]; rfl

theorem nextId_le_step (c : Calls) (e : Event) : c.nextId ≤ (c.step e).1.nextId := by
  rw [nextId_step]
  split
  · split <;> omega
  · exact Nat.le_refl _

/-- The watch takes one event at most. -/
theorem jobs_step (c : Calls) (e : Event) :
    (c.step e).1.jobs = c.jobs ∨ ∃ j, (c.step e).1.jobs = (c.jobs.step j).1 := by
  cases e with
  | register kind =>
    cases hc : c.closed with
    | none => simp [step, register_ok hc]
    | some reason => simp [step, register_error hc]
  | answer r =>
    rcases step_answer c r with ⟨-, hs⟩ | ⟨kind, -, -, hs⟩ | ⟨job, -, hs⟩ <;> rw [hs]
    · exact .inl rfl
    · exact .inl rfl
    · exact .inr ⟨.attach job r.id, rfl⟩
  | report e => exact .inr ⟨.report e, rfl⟩
  | cancel call => exact .inr ⟨.forget call, rfl⟩
  | failAll reason =>
    cases hc : c.closed with
    | none => rw [step_failAll hc]; exact .inr ⟨.failAll reason, rfl⟩
    | some why => rw [step_failAll_closed hc]; exact .inl rfl

theorem Inv.step (h : c.Inv) (e : Event) : (c.step e).1.Inv where
  once := by
    refine List.nodup_iff_count_le_one.2 fun id => ?_
    have hl := ledger_step h e id
    have hone := List.nodup_iff_count_le_one.1 h.once id
    split at hl
    · rename_i hb
      have : c.held.count id = 0 := List.count_eq_zero.2 fun hm => by
        have := h.below id hm
        omega
      omega
    · omega
  below := by
    intro id hm
    have hl := ledger_step h e id
    have hpos := List.count_pos_iff.2 hm
    split at hl
    · rename_i hb
      exact hb.2
    · have := h.below id (List.count_pos_iff.1 (by omega))
      exact Nat.lt_of_lt_of_le this (nextId_le_step c e)
  closed := by
    intro hc
    have hl := ledger_step h e
    cases hb : c.closed with
    | none =>
      cases e with
      | failAll reason => rw [step_failAll hb]; exact ⟨rfl, rfl⟩
      | _ => rw [closed_step] at hc; simp [hb] at hc
    | some why =>
      -- no call is held and none is admitted, so none is held afterwards
      obtain ⟨hp, hw⟩ := h.closed (by rw [hb]; rfl)
      have hheld : (c.step e).1.held = [] := by
        refine List.eq_nil_iff_forall_not_mem.2 fun id hm => ?_
        have hpos := List.count_pos_iff.2 hm
        have hn : (c.step e).1.nextId = c.nextId := by
          rw [nextId_step]
          split
          · simp [hb]
          · rfl
        have hzero : c.held.count id = 0 := by simp [held, hp, hw, Table.keys, Table.values]
        have hl := hl id
        rw [hn, if_neg (by omega)] at hl
        omega
      simpa [held, Table.keys, Table.values] using hheld
  jobs := by
    rcases jobs_step c e with hs | ⟨j, hs⟩ <;> rw [hs]
    · exact h.jobs
    · exact h.jobs.step j

/-! ## Runs -/

theorem run_cons (c : Calls) (e : Event) (es : List Event) :
    c.run (e :: es) = (((c.step e).1.run es).1, (c.step e).2 ++ ((c.step e).1.run es).2) := by
  have hrun : ∀ (c : Calls) (es : List Event), c.run es =
      es.foldl (fun p e => ((p.1.step e).1, p.2 ++ (p.1.step e).2)) (c, []) := fun _ _ => rfl
  have key : ∀ (es : List Event) (c : Calls) (s : List Settlement),
      es.foldl (fun p e => ((p.1.step e).1, p.2 ++ (p.1.step e).2)) (c, s) =
        ((c.run es).1, s ++ (c.run es).2) := by
    intro es
    induction es with
    | nil => intro c s; simp [run]
    | cons e es ih =>
      intro c s
      rw [List.foldl_cons, hrun, List.foldl_cons]
      simp only [ih]
      simp
  rw [hrun, List.foldl_cons, key]
  simp

theorem run_append (c : Calls) (es fs : List Event) :
    c.run (es ++ fs) = (((c.run es).1.run fs).1, (c.run es).2 ++ ((c.run es).1.run fs).2) := by
  induction es generalizing c with
  | nil => simp [run]
  | cons e es ih => simp [run_cons, ih]

@[simp] theorem run_nil (c : Calls) : c.run [] = (c, []) := rfl

theorem run_singleton (c : Calls) (e : Event) : c.run [e] = c.step e := by simp [run_cons]

theorem Inv.run (h : c.Inv) (es : List Event) : (c.run es).1.Inv := by
  induction es generalizing c with
  | nil => exact h
  | cons e es ih => rw [run_cons]; exact ih (h.step e)

theorem Reachable.inv (h : c.Reachable) : c.Inv := by
  obtain ⟨es, rfl⟩ := h
  exact Inv.empty.run es

theorem nextId_le_run (c : Calls) (es : List Event) : c.nextId ≤ (c.run es).1.nextId := by
  induction es generalizing c with
  | nil => exact Nat.le_refl _
  | cons e es ih => rw [run_cons]; exact Nat.le_trans (nextId_le_step c e) (ih _)

/-- **The ledger.** Over any run, a call that has been admitted is outstanding in one place, or its
slot has ended once. -/
theorem ledger (h : c.Inv) (es : List Event) (id : Nat) :
    (c.run es).1.held.count id + (endsOf id (c.run es).2).length =
      c.held.count id + if c.nextId ≤ id ∧ id < (c.run es).1.nextId then 1 else 0 := by
  induction es generalizing c with
  | nil =>
    have hsame : ¬ (c.nextId ≤ id ∧ id < c.nextId) := by omega
    simp [hsame]
  | cons e es ih =>
    have h1 := ledger_step h e id
    have h2 := ih (h.step e)
    have hle := nextId_le_step c e
    have hle' := nextId_le_run (c.step e).1 es
    rw [run_cons, endsOf_append, List.length_append]
    simp only at h2 ⊢
    split at h1 <;> split at h2 <;> split <;> omega

/-- A call that has ended does not end again. -/
theorem endsOf_run_of_ended (h : c.Inv) (hid : id < c.nextId) (ho : ¬ c.Outstanding id)
    (es : List Event) : endsOf id (c.run es).2 = [] := by
  have hl := ledger h es id
  rw [if_neg (by omega), List.count_eq_zero.2 (mt mem_held.1 ho)] at hl
  exact List.length_eq_zero_iff.1 (by omega)

/-- An event that ends a call takes it out of the tables. -/
theorem not_outstanding_of_ended (h : c.Inv) (hid : id < c.nextId) {e : Event} {x : Slot.End}
    (hx : endsOf id (c.step e).2 = [x]) : ¬ (c.step e).1.Outstanding id := by
  intro ho
  have hl := ledger_step h e id
  have hone := List.nodup_iff_count_le_one.1 h.once id
  have hpos := List.count_pos_iff.2 (mem_held.2 ho)
  rw [hx, if_neg (by omega), List.length_singleton] at hl
  omega

/-- A call that is still in the tables has not ended. -/
theorem endsOf_step_of_outstanding (h : c.Inv) (hid : id < c.nextId) {e : Event}
    (ho : (c.step e).1.Outstanding id) : endsOf id (c.step e).2 = [] := by
  have hl := ledger_step h e id
  have hone := List.nodup_iff_count_le_one.1 h.once id
  have hpos := List.count_pos_iff.2 (mem_held.2 ho)
  rw [if_neg (by omega)] at hl
  exact List.length_eq_zero_iff.1 (by omega)

theorem outstanding_lt (h : c.Inv) (ho : c.Outstanding id) : id < c.nextId :=
  h.below id (mem_held.2 ho)

/-- A run follows one call: an event of which `decide` says nothing leaves the call in a state `P`,
and what `decide` says first is how the call ends. -/
theorem endsOf_run_eq_findSome (P : Calls → Prop) (allowed : Calls → Event → Prop)
    {decide : Event → Option Slot.End} (hout : ∀ c, P c → c.Outstanding id)
    (hgoes : ∀ c e, c.Inv → P c → allowed c e → decide e = none → P (c.step e).1)
    (hends : ∀ c e x, c.Inv → P c → allowed c e → decide e = some x → endsOf id (c.step e).2 = [x])
    (h : c.Inv) (hc : P c) (es : List Event)
    (hall : ∀ before e after, es = before ++ e :: after → allowed (c.run before).1 e) :
    endsOf id (c.run es).2 = (es.findSome? decide).toList := by
  induction es generalizing c with
  | nil => simp
  | cons e es ih =>
    have ha : allowed c e := hall [] e es rfl
    have hid := outstanding_lt h (hout c hc)
    rw [run_cons, endsOf_append, List.findSome?_cons]
    cases hd : decide e with
    | none =>
      have hP := hgoes c e h hc ha hd
      rw [endsOf_step_of_outstanding h hid (hout _ hP), List.nil_append]
      refine ih (h.step e) hP fun before e' after he => ?_
      have := hall (e :: before) e' after (by rw [he]; rfl)
      rwa [run_cons] at this
    | some x =>
      have hx := hends c e x h hc ha hd
      have hid' := Nat.lt_of_lt_of_le hid (nextId_le_step c e)
      rw [hx, endsOf_run_of_ended (h.step e) hid' (not_outstanding_of_ended h hid hx) es]
      rfl

/-! ## Calls that have not ended -/

theorem outstanding_of_pending {kind : Call.Kind} (hk : c.pending.lookup id = some kind) :
    c.Outstanding id := .inl (Table.lookup_isSome.1 (by rw [hk]; rfl))

theorem outstanding_of_waiting {job : Nat} (hw : c.jobs.waiting.lookup job = some id) :
    c.Outstanding id := .inr (Table.mem_values.2 ⟨job, Table.mem_of_lookup hw⟩)

theorem endsOf_filled_all (ids : List Nat) (o : Outcome) :
    endsOf id (ids.map fun i => .filled i o) = List.replicate (ids.count id) (.filled o) := by
  induction ids with
  | nil => rfl
  | cons i ids ih =>
    rw [List.map_cons, ← List.singleton_append, endsOf_append, endsOf_filled, ih]
    by_cases hi : i = id <;> simp [hi, List.replicate_succ]

/-- The end of all calls ends each of them with its reason. -/
theorem endsOf_failAll (h : c.Inv) (ho : c.Outstanding id) (reason : LinkError) :
    endsOf id (c.step (.failAll reason)).2 = [.filled (.error reason)] := by
  have hm := mem_held.2 ho
  rw [step_failAll (h.isOpen hm), endsOf_filled_all, h.once.count, if_pos hm]
  rfl

/-- A cancel gives up the slot of a call that has not ended. -/
theorem endsOf_cancel (h : c.Inv) (ho : c.Outstanding id) :
    endsOf id (c.step (.cancel id)).2 = [.abandoned] := by
  have hgone : ¬ (c.step (.cancel id)).1.Outstanding id := by
    rintro (hp | hw)
    · exact Table.keys_erase hp
    · obtain ⟨e, he, hid⟩ := List.mem_map.1 hw
      exact (by simpa using (List.mem_filter.1 he).2 : e.2 ≠ id) hid
  have hl := ledger_step h (.cancel id) id
  have hone := List.nodup_iff_count_le_one.1 h.once id
  have hpos := List.count_pos_iff.2 (mem_held.2 ho)
  have hlt := outstanding_lt h ho
  rw [if_neg (by omega), List.count_eq_zero.2 (mt mem_held.1 hgone)] at hl
  have hlen : (endsOf id (c.step (.cancel id)).2).length = 1 := by omega
  obtain ⟨x, hx⟩ := List.length_eq_one_iff.1 hlen
  -- every settlement of a cancel gives a slot up
  have hall : ∀ s ∈ (c.step (.cancel id)).2, s.how = .abandoned := by
    intro s hs
    rcases List.mem_append.1 hs with hs | hs
    · cases hk : c.pending.lookup id with
      | none => simp [hk] at hs
      | some kind => rw [hk] at hs; rw [List.mem_singleton.1 hs]; rfl
    · obtain ⟨e, -, rfl⟩ := List.mem_map.1 hs
      rfl
  have hmem : x ∈ endsOf id (c.step (.cancel id)).2 := by rw [hx]; exact List.mem_singleton_self x
  rw [hx, ← hall _ (mem_endsOf.1 hmem)]

theorem endsOf_cancel_ne {call : Nat} (hne : id ≠ call) :
    endsOf id (c.step (.cancel call)).2 = [] := by
  refine List.eq_nil_iff_forall_not_mem.2 fun x hx => ?_
  rcases List.mem_append.1 (mem_endsOf.1 hx) with hm | hm
  · cases hk : c.pending.lookup call with
    | none => simp [hk] at hm
    | some kind =>
      rw [hk] at hm
      exact hne (congrArg Settlement.call (List.mem_singleton.1 hm))
  · obtain ⟨e, he, hs⟩ := List.mem_map.1 hm
    have hcall : e.2 = call := by simpa using (List.mem_filter.1 he).2
    exact hne ((congrArg Settlement.call hs).symm.trans hcall)

end Calls

end ServerLink
