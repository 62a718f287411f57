import ServerLink.Proofs.Calls.JobEnd
import ServerLink.Proofs.Json.Fields

/-!
# The job that an answer names

An answer may name its job as a bare number, as an object's `job_id` or as its `id`
(`Job.Named`). `Job.id?` finds every job that is named so, but for an object whose `job_id` is
there and is no number: it hides the job of the `id` beside it (`Job.Shadowed`, `id?_eq_some`).
What is found is what the call is attached to, and a call that is not attached fails at once
(`attaches_iff`, `refuses_iff`).
-/

namespace ServerLink

/-! ## Unsigned integers -/

namespace Json

/-- The value is this unsigned integer of 64 bits. -/
def IsUnsigned (v : Json) (n : Nat) : Prop := n < 2 ^ 64 ∧ v = .ofNat n

theorem toNat?_eq_some {v : Json} {n : Nat} : v.toNat? = some n ↔ v.IsUnsigned n := by
  constructor
  · intro h
    refine ⟨lt_of_toNat? h, ?_⟩
    cases v with
    | number x =>
      cases x with
      | integer i hi =>
        simp only [toNat?, Number.toNat?, Option.ite_none_right_eq_some, Option.some.injEq] at h
        obtain ⟨h0, rfl⟩ := h
        have hmod : ((i.toNat % 2 ^ 64 : Nat) : Int) = i := by omega
        simp only [ofNat, Number.ofNat, hmod]
      | float x => cases h
    | _ => cases h
  · rintro ⟨hn, rfl⟩
    exact toNat?_ofNat hn

theorem toNat?_eq_none {v : Json} : v.toNat? = none ↔ ¬ ∃ n, v.IsUnsigned n := by
  simp only [← toNat?_eq_some, Option.eq_none_iff_forall_ne_some, not_exists]

end Json

namespace Job

/-! ## The shapes of a name -/

/-- The value names the job, in one of the shapes that an answer may have: the number itself, an
object's `job_id`, or its `id` where the `job_id` is not such a number or is missing. -/
inductive Named (v : Json) (job : Nat) : Prop
  | bare (h : v.IsUnsigned job)
  | jobId {u : Json} (hu : v.get? "job_id" = some u) (h : u.IsUnsigned job)
  | id {w : Json} (hno : ∀ u, v.get? "job_id" = some u → ¬ ∃ n, u.IsUnsigned n)
      (hw : v.get? "id" = some w) (h : w.IsUnsigned job)

/-- The object has a `job_id` that is no number, and names a job by its `id` all the same. -/
def Shadowed (v : Json) : Prop :=
  ∃ u w job, v.get? "job_id" = some u ∧ (¬ ∃ n, u.IsUnsigned n) ∧
    v.get? "id" = some w ∧ w.IsUnsigned job

variable {v : Json} {job : Nat}

theorem Shadowed.named (h : Shadowed v) : ∃ job, Named v job := by
  obtain ⟨u, w, job, hu, hno, hw, hjob⟩ := h
  refine ⟨job, .id (fun u' hu' => ?_) hw hjob⟩
  rw [hu] at hu'
  cases hu'
  exact hno

/-- What is found in an object is found in its `job_id`, if it has one. -/
theorem id?_object (ms : List (String × Json)) : id? (.object ms) =
    (((Json.object ms).get? "job_id").or ((Json.object ms).get? "id")).bind Json.toNat? := by
  simp only [id?, Json.get?]
  cases ms.lookup "job_id" <;> rfl

theorem id?_of_shadowed (h : Shadowed v) : id? v = none := by
  obtain ⟨u, w, job, hu, hno, -, -⟩ := h
  cases v with
  | object ms => rw [id?_object, hu]; exact Json.toNat?_eq_none.2 hno
  | _ => cases hu

/-- **What is found.** The job that an answer names is found unless it is hidden. -/
theorem id?_eq_some : id? v = some job ↔ Named v job ∧ ¬ Shadowed v := by
  constructor
  · intro h
    refine ⟨?_, fun hs => by rw [id?_of_shadowed hs] at h; cases h⟩
    cases v with
    | number n => exact .bare (Json.toNat?_eq_some.1 h)
    | object ms =>
      rw [id?_object] at h
      cases hu : (Json.object ms).get? "job_id" with
      | some u =>
        rw [hu] at h
        exact .jobId hu (Json.toNat?_eq_some.1 h)
      | none =>
        rw [hu] at h
        obtain ⟨w, hw, hjob⟩ := Option.bind_eq_some_iff.1 h
        exact .id (fun u hu' => by rw [hu] at hu'; cases hu') hw (Json.toNat?_eq_some.1 hjob)
    | _ => cases h
  · rintro ⟨hv, hs⟩
    cases hv with
    | bare h => obtain ⟨hjob, rfl⟩ := h; exact Json.toNat?_ofNat hjob
    | jobId hu h =>
      cases v with
      | object ms => rw [id?_object, hu]; exact Json.toNat?_eq_some.2 h
      | _ => cases hu
    | id hno hw h =>
      cases v with
      | object ms =>
        cases hu : (Json.object ms).get? "job_id" with
        | some u => exact absurd ⟨_, _, _, hu, hno _ hu, hw, h⟩ hs
        | none => rw [id?_object, hu, hw]; exact Json.toNat?_eq_some.2 h
      | _ => cases hw

theorem id?_eq_none : id? v = none ↔ (¬ ∃ job, Named v job) ∨ Shadowed v := by
  constructor
  · intro h
    by_cases hs : Shadowed v
    · exact .inr hs
    · refine .inl fun ⟨job, hv⟩ => ?_
      rw [id?_eq_some.2 ⟨hv, hs⟩] at h
      cases h
  · rintro (hno | hs)
    · exact Option.eq_none_iff_forall_ne_some.2 fun job h => hno ⟨job, (id?_eq_some.1 h).1⟩
    · exact id?_of_shadowed hs

theorem Report.outcome_ne_protocol (x : Report) (message : String) :
    x.outcome ≠ .error (.protocol message) := by
  unfold Report.outcome
  split <;> simp

theorem Watch.perm_eraseP {early : List Report} {x : Report}
    (hx : early.find? (·.id = job) = some x) : early.Perm (x :: early.eraseP (·.id = job)) := by
  obtain ⟨hid, front, back, rfl, hfront⟩ := List.find?_eq_some_iff_append.1 hx
  have hfront' : ∀ y ∈ front, ¬ decide (y.id = job) = true := by simpa using hfront
  have hback : (x :: back).eraseP (fun y => y.id = job) = back := List.eraseP_cons_of_pos hid
  rw [List.eraseP_append_right _ hfront', hback]
  exact List.perm_middle

end Job

namespace Calls

/-! ## Attached or refused -/

/-- The answer attaches its call to the job: the call waits for it from now on, or a last report of
the job is kept, which is taken and ends the call at once. -/
inductive Attaches (c : Calls) (r : Response) (job : Nat) : Prop
  | waits (hw : (c.step (.answer r)).1.jobs.waiting.lookup job = some r.id)
      (he : endsOf r.id (c.step (.answer r)).2 = [])
  | ended {x : Job.Report} (hx : x.id = job)
      (hk : c.jobs.early.Perm (x :: (c.step (.answer r)).1.jobs.early))
      (he : endsOf r.id (c.step (.answer r)).2 = [.filled x.outcome])

/-- The answer ends its call with the error that says what it is instead of a job's name, and does
nothing else. -/
def Refuses (c : Calls) (r : Response) : Prop :=
  c.step (.answer r) = (c.answered r.id,
    [.filled r.id (.error (.protocol ("expected a job id, got " ++ r.result.render)))])

variable {c : Calls} {r : Response} {job : Nat}

theorem Refuses.endsOf (h : c.Refuses r) : ServerLink.endsOf r.id (c.step (.answer r)).2 =
    [.filled (.error (.protocol ("expected a job id, got " ++ r.result.render)))] := by
  rw [h, endsOf_filled, if_pos rfl]

theorem Attaches.not_refuses (h : c.Attaches r job) : ¬ c.Refuses r := by
  intro hr
  cases h with
  | waits _ he => rw [hr.endsOf] at he; cases he
  | ended _ _ he =>
    rw [hr.endsOf, List.cons.injEq, Slot.End.filled.injEq] at he
    exact Job.Report.outcome_ne_protocol _ _ he.1.symm

/-- A call that waits for its answer does not wait for a job. -/
theorem not_waiting_of_pending (h : c.Inv) (hp : c.pending.lookup r.id = some .job) :
    (job, r.id) ∉ c.jobs.waiting := by
  intro hw
  have hkey : r.id ∈ Table.keys c.pending := Table.lookup_isSome.1 (by rw [hp]; rfl)
  exact (List.nodup_append.1 h.once).2.2 _ hkey _ (Table.mem_values.2 ⟨job, hw⟩) rfl

section
variable (h : c.Inv) (hp : c.pending.lookup r.id = some .job)
include h hp

theorem attaches_of_starts (hs : c.Starts r job) : c.Attaches r job := by
  have hstep := step_starts hs
  rcases Job.Watch.attach_cases c.jobs job r.id with ⟨x, hx, ha⟩ | ⟨hn, ha⟩ <;> rw [ha] at hstep
  · refine .ended (by simpa using List.find?_some hx) ?_ (by rw [hstep, endsOf_filled, if_pos rfl])
    rw [hstep]
    exact Job.Watch.perm_eraseP hx
  · refine .waits (by rw [hstep]; exact Table.lookup_insert_self) ?_
    rw [hstep]
    -- the call whose place is taken is another one
    cases hl : c.jobs.waiting.lookup job with
    | none => rfl
    | some other =>
      have hne : other ≠ r.id := fun he =>
        not_waiting_of_pending h hp (he ▸ Table.mem_of_lookup hl)
      simp [hne]

theorem Attaches.starts (ha : c.Attaches r job) : c.Starts r job := by
  rcases step_answer c r with ⟨hn, -⟩ | ⟨kind, -, -, hstep⟩ | ⟨job', hs, hstep⟩
  · rw [hp] at hn
    cases hn
  · -- the call has ended, and no report is taken
    cases ha with
    | waits _ he =>
      rw [hstep, endsOf_filled, if_pos rfl] at he
      cases he
    | ended _ hk _ =>
      have hlen := hk.length_eq
      rw [hstep] at hlen
      simp [answered] at hlen
  · cases ha with
    | waits hw _ =>
      rcases waiting_step (Table.mem_of_lookup hw) with hmem | ⟨r', he, -, hs'⟩
      · exact absurd hmem (not_waiting_of_pending h hp)
      · cases he
        exact hs'
    | @ended x hx hk _ =>
      rw [hstep] at hk
      rcases Job.Watch.attach_cases c.jobs job' r.id with ⟨y, hy, ha⟩ | ⟨-, ha⟩ <;> rw [ha] at hk
      · -- one report has left the list, so it is the one that was found
        have hsame := hk.symm.trans (Job.Watch.perm_eraseP hy)
        have hcount := hsame.count_eq y
        rw [List.count_cons, List.count_cons_self, Nat.add_left_cancel_iff] at hcount
        have hxy : x = y := by
          by_contra hne
          simp [hne] at hcount
        have hid : y.id = job' := by simpa using List.find?_some hy
        rw [← hx, hxy, hid]
        exact hs
      · have hlen := hk.length_eq
        simp at hlen

end

section
variable (h : c.Inv) (hr : r.error = none) (hp : c.pending.lookup r.id = some .job)
include hr hp

theorem starts_iff : c.Starts r job ↔ Job.id? r.result = some job := by
  have ho : r.outcome = .ok r.result := by rw [Response.outcome, hr]
  constructor
  · rintro ⟨-, v, hv, hjob⟩
    rw [ho] at hv
    cases hv
    exact hjob
  · intro hjob
    exact ⟨hp, _, ho, hjob⟩

theorem refuses_of_none (hn : Job.id? r.result = none) : c.Refuses r := by
  have ho : r.outcome = .ok r.result := by rw [Response.outcome, hr]
  simp [Refuses, step, answer, hp, settle, ho, hn, answered]

include h

/-- A call is attached to the job that is found in its answer. -/
theorem attaches_iff : c.Attaches r job ↔ Job.Named r.result job ∧ ¬ Job.Shadowed r.result := by
  rw [← Job.id?_eq_some, ← starts_iff hr hp]
  exact ⟨fun ha => ha.starts h hp, attaches_of_starts h hp⟩

/-- A call fails if no job is found in its answer. -/
theorem refuses_iff :
    c.Refuses r ↔ (¬ ∃ job, Job.Named r.result job) ∨ Job.Shadowed r.result := by
  rw [← Job.id?_eq_none]
  refine ⟨fun hrefuses => ?_, refuses_of_none hr hp⟩
  refine Option.eq_none_iff_forall_ne_some.2 fun job hjob => ?_
  exact (attaches_of_starts h hp ((starts_iff hr hp).2 hjob)).not_refuses hrefuses

end

/-- **Names of jobs.** At any point of any run, let a result come for a job call. Its call is
attached to exactly the job that the result names, and fails with the error about job ids if the
result names none, if and only if the result's `id` is not hidden by its `job_id`. Where it is
hidden, the call fails although the result names a job. In any case the call is attached to one
job or fails, and never both. -/
theorem job_answers_are_taken_by_name (events : List Event) (r : Response) (hr : r.error = none)
    (hp : (run {} events).1.pending.lookup r.id = some .job) :
    let c := (run {} events).1
    (((∀ job, c.Attaches r job ↔ Job.Named r.result job) ∧
        (c.Refuses r ↔ ¬ ∃ job, Job.Named r.result job)) ↔ ¬ Job.Shadowed r.result) ∧
      (Job.Shadowed r.result → c.Refuses r ∧ ∃ job, Job.Named r.result job) ∧
      ((∃ job, c.Attaches r job) ↔ ¬ c.Refuses r) ∧
      ∀ job job', c.Attaches r job → c.Attaches r job' → job = job' := by
  intro c
  have hinv : c.Inv := Inv.empty.run events
  have hattaches : ∀ job, c.Attaches r job ↔ _ := fun job => attaches_iff hinv hr hp
  have hrefuses : c.Refuses r ↔ _ := refuses_iff hinv hr hp
  refine ⟨⟨fun ⟨hall, _⟩ hs => ?_, fun hs => ⟨fun job => ?_, ?_⟩⟩, fun hs => ⟨?_, hs.named⟩,
    ⟨fun ⟨job, ha⟩ => ha.not_refuses, fun hno => ?_⟩, fun job job' ha ha' => ?_⟩
  · obtain ⟨job, hv⟩ := hs.named
    exact ((hattaches job).1 ((hall job).2 hv)).2 hs
  · rw [hattaches job]
    exact and_iff_left hs
  · rw [hrefuses]
    exact or_iff_left hs
  · exact hrefuses.2 (.inr hs)
  · rw [hrefuses, not_or, not_not] at hno
    obtain ⟨⟨job, hv⟩, hs⟩ := hno
    exact ⟨job, (hattaches job).2 ⟨hv, hs⟩⟩
  · exact (ha.starts hinv hp).unique (ha'.starts hinv hp)

/-- An answer that names its job by an `id` alone. -/
def answerWithId : Response := .success 1 (.object [("id", .ofNat 19)])

theorem job_named_by_id_is_attached :
    (run {} [.register .job]).1.pending.lookup answerWithId.id = some .job ∧
      Job.Named answerWithId.result 19 ∧ (run {} [.register .job]).1.Attaches answerWithId 19 := by
  have hno : ∀ u, answerWithId.result.get? "job_id" = some u → ¬ ∃ n, u.IsUnsigned n :=
    fun u hu => by cases hu
  have hv : Job.Named answerWithId.result 19 := .id hno rfl ⟨by decide, rfl⟩
  have hs : ¬ Job.Shadowed answerWithId.result := fun ⟨u, _, _, hu, _⟩ => by cases hu
  refine ⟨rfl, hv, ?_⟩
  exact (((job_answers_are_taken_by_name [.register .job] answerWithId rfl rfl).1.2 hs).1 19).2 hv

/-- The same answer with an empty `job_id` beside the `id`. -/
def answerWithNullJobId : Response :=
  .success 1 (.object [("id", .ofNat 19), ("job_id", .null)])

theorem null_hides_the_id :
    (run {} [.register .job]).1.pending.lookup answerWithNullJobId.id = some .job ∧
      Job.Named answerWithNullJobId.result 19 ∧
      ¬ (run {} [.register .job]).1.Attaches answerWithNullJobId 19 ∧
      (run {} [.register .job]).1.Refuses answerWithNullJobId := by
  have hnull : ¬ ∃ n, Json.IsUnsigned .null n := fun ⟨n, _, h⟩ => by cases h
  have hs : Job.Shadowed answerWithNullJobId.result :=
    ⟨.null, .ofNat 19, 19, rfl, hnull, rfl, by decide, rfl⟩
  have hinv : (run {} [.register .job]).1.Inv := Inv.empty.run _
  have hrefuses := (refuses_iff hinv (r := answerWithNullJobId) rfl rfl).2 (.inr hs)
  refine ⟨rfl, .id (fun u hu => ?_) rfl ⟨by decide, rfl⟩, fun ha => ha.not_refuses hrefuses,
    hrefuses⟩
  cases hu
  exact hnull

end Calls

end ServerLink
