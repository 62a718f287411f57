import Mathlib.Data.List.Induction
import ServerLink.Proofs.Job.Watch
import ServerLink.Proofs.Subscription.History

/-!
# The reports that a watch keeps

A report is known by its position among the events of a run (`kept`). `mem_kept_iff` says which ones
a watch keeps: the last reports that found nobody waiting since all calls last ended (`HasCome`),
but for those that an attached call has taken or that others have pushed out (`HasLeft`). Nobody
waits for a job whose last report is kept, or has come since
(`WaitsSince`, `early_reports_are_accounted_for`).
-/

namespace ServerLink.Job.Watch

/-- A report with the position of the event that it comes with. -/
abbrev Entry := Nat × Report

/-- The report is the last of a job that nobody waits for. -/
def IsUnclaimed (w : Watch) (r : Report) : Prop :=
  r.state.isTerminal = true ∧ w.waiting.lookup r.id = none

instance (w : Watch) (r : Report) : Decidable (w.IsUnclaimed r) :=
  inferInstanceAs (Decidable (_ ∧ _))

/-- What is kept after an event at a position. -/
def note (w : Watch) (position : Nat) (entries : List Entry) : Event → List Entry
  | .attach job _ => entries.eraseP (·.2.id = job)
  | .report r =>
    if w.IsUnclaimed r then
      (if entries.length = earlyCapacity then entries.drop 1 else entries) ++ [(position, r)]
    else entries
  | .forget _ => entries
  | .failAll _ => []

/-- What is kept after some events, the latest of them first. -/
def keptBackwards : List Event → List Entry
  | [] => []
  | e :: es => note (run {} es.reverse).1 es.length (keptBackwards es) e

/-- What a watch keeps after some events, in order. -/
def kept (es : List Event) : List Entry := keptBackwards es.reverse

/-- Why an entry among those kept leaves with an event. -/
inductive Leaves (w : Watch) (entries : List Entry) (x : Entry) : Event → Prop
  /-- It is the oldest of its job, and ends a call that is attached to the job. -/
  | taken {job call : Nat} (hid : x.2.id = job)
      (oldest : ∀ y ∈ entries, y.2.id = job → x.1 ≤ y.1)
      (ends : (w.attach job call).2 = [.filled call x.2.outcome]) :
      Leaves w entries x (.attach job call)
  /-- It is the oldest of as many as there is room for, and another one comes. -/
  | pushedOut {r : Report} (full : entries.length = earlyCapacity)
      (oldest : ∀ y ∈ entries, x.1 ≤ y.1) (another : w.IsUnclaimed r) :
      Leaves w entries x (.report r)

/-- All calls end. -/
def Event.IsFailAll : Event → Prop
  | .failAll _ => True
  | _ => False

/-- The last report of a job comes. -/
def Event.Ends (job : Nat) : Event → Prop
  | .report r => r.id = job ∧ r.state.isTerminal = true
  | _ => False

/-- The report came with the event at this position, since all calls last ended, as the last of its
job, and found nobody waiting. -/
def HasCome (es : List Event) (x : Entry) : Prop :=
  ∃ before e after, es = before ++ e :: after ∧
    (x.1 = before.length ∧ e = .report x.2 ∧ (run {} before).1.IsUnclaimed x.2) ∧
    ∀ later ∈ after, ¬ later.IsFailAll

/-- The report was kept, and has left. -/
def HasLeft (es : List Event) (x : Entry) : Prop :=
  ∃ before e after, es = before ++ e :: after ∧
    x ∈ kept before ∧ Leaves (run {} before).1 (kept before) x e

/-- The call was attached to the job while no report of it was kept, and its last report has not
come since. -/
def WaitsSince (es : List Event) (job call : Nat) : Prop :=
  ∃ before e after, es = before ++ e :: after ∧
    (e = .attach job call ∧ ∀ x ∈ kept before, x.2.id ≠ job) ∧
    ∀ later ∈ after, ¬ later.Ends job

variable {w : Watch} {es : List Event} {e : Event} {x : Entry} {entries : List Entry}

/-! ## One event more -/

theorem run_concat (es : List Event) (e : Event) :
    (run {} (es ++ [e])).1 = ((run {} es).1.step e).1 := by simp [run]

theorem inv_run (es : List Event) : (run {} es).1.Inv := by
  induction es using List.reverseRecOn with
  | nil => exact .empty
  | append_singleton es e ih => rw [run_concat]; exact ih.step e

theorem kept_concat (es : List Event) (e : Event) :
    kept (es ++ [e]) = note (run {} es).1 es.length (kept es) e := by
  simp [kept, keptBackwards]

theorem hasCome_concat : HasCome (es ++ [e]) x ↔ HasCome es x ∧ ¬ e.IsFailAll ∨
    x.1 = es.length ∧ e = .report x.2 ∧ (run {} es).1.IsUnclaimed x.2 :=
  exists_split_since_concat

theorem hasLeft_concat : HasLeft (es ++ [e]) x ↔
    HasLeft es x ∨ x ∈ kept es ∧ Leaves (run {} es).1 (kept es) x e :=
  exists_split_concat

theorem waitsSince_concat {job call : Nat} : WaitsSince (es ++ [e]) job call ↔
    WaitsSince es job call ∧ ¬ e.Ends job ∨ e = .attach job call ∧ ∀ x ∈ kept es, x.2.id ≠ job :=
  exists_split_since_concat

/-! ## What is kept -/

/-- The entries are what the watch keeps after so many events, in order. -/
structure Mirrors (w : Watch) (position : Nat) (entries : List Entry) : Prop where
  early : w.early = entries.map (·.2)
  before : ∀ x ∈ entries, x.1 < position
  sorted : entries.Pairwise (·.1 < ·.1)
  last : ∀ x ∈ entries, x.2.state.isTerminal = true

/-- A call that is attached takes what is kept of its job. -/
theorem early_attach (w : Watch) (job call : Nat) :
    (w.attach job call).1.early = w.early.eraseP (·.id = job) := by
  rcases attach_cases w job call with ⟨r, -, ha⟩ | ⟨hnone, ha⟩ <;> rw [ha]
  exact (List.eraseP_of_forall_not fun r hr => List.find?_eq_none.1 hnone r hr).symm

theorem report_of_isUnclaimed {r : Report} (h : w.IsUnclaimed r) :
    w.report r = (w.remember r, []) := by
  rw [Watch.report, if_pos h.1, h.2]

theorem early_report {r : Report} (h : ¬ w.IsUnclaimed r) : (w.report r).1.early = w.early := by
  unfold Watch.report
  split
  · rename_i hlast
    split
    · rfl
    · rename_i hfree
      exact absurd ⟨hlast, hfree⟩ h
  · rfl

namespace Mirrors

theorem empty : Mirrors {} 0 [] := ⟨rfl, by simp, .nil, by simp⟩

variable {n : Nat} (h : w.Mirrors n entries)
include h

/-- What stays of the entries. -/
theorem sublist {w' : Watch} {rest : List Entry} (hrest : rest.Sublist entries)
    (hearly : w'.early = rest.map (·.2)) : w'.Mirrors (n + 1) rest where
  early := hearly
  before x hx := Nat.lt_succ_of_lt (h.before x (hrest.subset hx))
  sorted := h.sorted.sublist hrest
  last x hx := h.last x (hrest.subset hx)

theorem remember {r : Report} (hr : w.IsUnclaimed r) :
    (w.remember r).Mirrors (n + 1) (note w n entries (.report r)) := by
  have hlength : w.early.length = entries.length := by rw [h.early, List.length_map]
  have hnote : note w n entries (.report r) =
      (if entries.length = earlyCapacity then entries.drop 1 else entries) ++ [(n, r)] := if_pos hr
  have hrest :
      (if entries.length = earlyCapacity then entries.drop 1 else entries).Sublist entries := by
    split
    · exact List.drop_sublist 1 entries
    · exact .refl _
  rw [hnote]
  refine ⟨?_, fun x hx => ?_, ?_, fun x hx => ?_⟩
  · rw [Watch.remember, hlength, h.early]
    split <;> simp
  · rcases List.mem_append.1 hx with hx | hx
    · exact Nat.lt_succ_of_lt (h.before x (hrest.subset hx))
    · rw [List.mem_singleton.1 hx]
      exact Nat.lt_succ_self n
  · refine List.pairwise_append.2 ⟨h.sorted.sublist hrest, List.pairwise_singleton .., ?_⟩
    intro x hx y hy
    rw [List.mem_singleton.1 hy]
    exact h.before x (hrest.subset hx)
  · rcases List.mem_append.1 hx with hx | hx
    · exact h.last x (hrest.subset hx)
    · rw [List.mem_singleton.1 hx]
      exact hr.1

theorem step (e : Event) : (w.step e).1.Mirrors (n + 1) (note w n entries e) := by
  cases e with
  | attach job call =>
    refine h.sublist List.eraseP_sublist ?_
    show (w.attach job call).1.early = _
    rw [early_attach, h.early, List.eraseP_map]
    rfl
  | report r =>
    by_cases hr : w.IsUnclaimed r
    · rw [Watch.step, report_of_isUnclaimed hr]
      exact h.remember hr
    · rw [note, if_neg hr]
      exact h.sublist (.refl _) ((early_report hr).trans h.early)
  | forget call => exact h.sublist (.refl _) h.early
  | failAll reason => exact h.sublist (List.nil_sublist _) rfl

end Mirrors

theorem mirrors_run (es : List Event) : (run {} es).1.Mirrors es.length (kept es) := by
  induction es using List.reverseRecOn with
  | nil => exact .empty
  | append_singleton es e ih =>
    rw [run_concat, kept_concat, List.length_append]
    exact ih.step e

/-! ## What leaves -/

/-- One of some entries with different positions is left out. -/
theorem mem_append_iff {front back : List Entry} {y : Entry}
    (hsorted : (front ++ x :: back).Pairwise (·.1 < ·.1)) :
    y ∈ front ++ back ↔ y ∈ front ++ x :: back ∧ y.1 ≠ x.1 := by
  obtain ⟨-, hback, hfront⟩ := List.pairwise_append.1 hsorted
  have hback := (List.pairwise_cons.1 hback).1
  have hne : y ∈ front ++ back → y.1 ≠ x.1 := fun hy => by
    rcases List.mem_append.1 hy with hy | hy
    · exact Nat.ne_of_lt (hfront y hy x List.mem_cons_self)
    · exact Nat.ne_of_gt (hback y hy)
  constructor
  · intro hy
    refine ⟨?_, hne hy⟩
    rcases List.mem_append.1 hy with hy | hy <;> simp [hy]
  · rintro ⟨hy, hyx⟩
    simp only [List.mem_append, List.mem_cons] at hy ⊢
    rcases hy with hy | rfl | hy
    · exact .inl hy
    · exact absurd rfl hyx
    · exact .inr hy

theorem not_leaves_forget {call : Nat} : ¬ Leaves w entries x (.forget call) := nofun

theorem leaves_report_iff {r : Report} : Leaves w entries x (.report r) ↔
    entries.length = earlyCapacity ∧ (∀ y ∈ entries, x.1 ≤ y.1) ∧ w.IsUnclaimed r := by
  constructor
  · rintro (_ | ⟨hfull, holdest, hr⟩)
    exact ⟨hfull, holdest, hr⟩
  · rintro ⟨hfull, holdest, hr⟩
    exact .pushedOut hfull holdest hr

namespace Mirrors

variable {n : Nat} (h : w.Mirrors n entries)
include h

theorem eq_of_position {y : Entry} (hx : x ∈ entries) (hy : y ∈ entries) (he : x.1 = y.1) :
    x = y :=
  List.inj_on_of_nodup_map (List.pairwise_map.2 (h.sorted.imp Nat.ne_of_lt)) hx hy he

/-- A call takes the oldest report of its job, and no other. -/
theorem mem_note_attach (job call : Nat) : x ∈ note w n entries (.attach job call) ↔
    x ∈ entries ∧ ¬ Leaves w entries x (.attach job call) := by
  rw [note]
  cases hx : entries.find? (·.2.id = job) with
  | none =>
    have hnone : ∀ y ∈ entries, y.2.id ≠ job := by simpa using hx
    rw [List.eraseP_of_forall_not fun y hy => by simpa using hnone y hy]
    refine ⟨fun hx => ⟨hx, fun hl => ?_⟩, And.left⟩
    cases hl with
    | taken hid _ _ => exact hnone x hx hid
  | some y =>
    obtain ⟨hid, front, back, hsplit, hfront⟩ := List.find?_eq_some_iff_append.1 hx
    have hfront' : ∀ z ∈ front, ¬ decide (z.2.id = job) = true := by simpa using hfront
    have hrest : entries.eraseP (·.2.id = job) = front ++ back := by
      have hback : (y :: back).eraseP (·.2.id = job) = back := List.eraseP_cons_of_pos hid
      rw [hsplit, List.eraseP_append_right _ hfront', hback]
    have hy : y ∈ entries := List.mem_of_find?_eq_some hx
    have hid : y.2.id = job := of_decide_eq_true hid
    have holdest : ∀ z ∈ entries, z.2.id = job → y.1 ≤ z.1 := by
      intro z hz hzid
      rw [hsplit] at hz
      rcases List.mem_append.1 hz with hz | hz
      · exact absurd (decide_eq_true hzid) (hfront' z hz)
      · have hback := (List.pairwise_append.1 (hsplit ▸ h.sorted)).2.1
        rcases List.mem_cons.1 hz with rfl | hz
        · exact Nat.le_refl _
        · exact Nat.le_of_lt ((List.pairwise_cons.1 hback).1 z hz)
    have hends : (w.attach job call).2 = [.filled call y.2.outcome] := by
      have hfound : w.early.find? (·.id = job) = some y.2 := by
        rw [h.early, List.find?_map]
        exact congrArg (Option.map (·.2)) hx
      rw [Watch.attach, hfound]
    rw [hrest, mem_append_iff (hsplit ▸ h.sorted), ← hsplit]
    refine and_congr_right fun hx => not_congr ⟨fun he => ?_, fun hl => ?_⟩
    · rw [h.eq_of_position hx hy he]
      exact .taken hid holdest hends
    · cases hl with
      | taken hxid hfirst _ => exact Nat.le_antisymm (hfirst y hy hid) (holdest x hx hxid)

/-- All but the oldest of some entries. -/
theorem mem_drop_one (hne : entries ≠ []) :
    x ∈ entries.drop 1 ↔ x ∈ entries ∧ ¬ ∀ y ∈ entries, x.1 ≤ y.1 := by
  obtain ⟨first, rest, rfl⟩ := List.exists_cons_of_ne_nil hne
  have hfirst : ∀ y ∈ first :: rest, first.1 ≤ y.1 := by
    intro y hy
    rcases List.mem_cons.1 hy with rfl | hy
    · exact Nat.le_refl _
    · exact Nat.le_of_lt ((List.pairwise_cons.1 h.sorted).1 y hy)
  have hmem : x ∈ [] ++ rest ↔ x ∈ [] ++ first :: rest ∧ x.1 ≠ first.1 := mem_append_iff h.sorted
  rw [List.nil_append, List.nil_append] at hmem
  rw [List.drop_one, List.tail_cons, hmem]
  refine and_congr_right fun hx => not_congr ⟨fun he => ?_, fun hl => ?_⟩
  · rwa [he]
  · exact Nat.le_antisymm (hl first List.mem_cons_self) (hfirst x hx)

/-- A last report that nobody waits for pushes out the oldest one, where there is no room. -/
theorem mem_note_report (r : Report) : x ∈ note w n entries (.report r) ↔
    x ∈ entries ∧ ¬ Leaves w entries x (.report r) ∨ x = (n, r) ∧ w.IsUnclaimed r := by
  rw [note, leaves_report_iff]
  by_cases hr : w.IsUnclaimed r
  · rw [if_pos hr, List.mem_append, List.mem_singleton]
    simp only [hr, and_true]
    refine or_congr_left ?_
    split
    · rename_i hfull
      have hne : entries ≠ [] := List.ne_nil_of_length_pos (hfull ▸ earlyCapacity_pos)
      simp only [h.mem_drop_one hne, hfull, true_and]
    · rename_i hroom
      simp [hroom]
  · simp [hr]

/-- What is kept after an event is what was kept and does not leave with it, and what comes with
it. -/
theorem mem_note (e : Event) : x ∈ note w n entries e ↔
    (x ∈ entries ∧ ¬ Leaves w entries x e) ∧ ¬ e.IsFailAll ∨
      x.1 = n ∧ e = .report x.2 ∧ w.IsUnclaimed x.2 := by
  cases e with
  | attach job call => simpa [Event.IsFailAll] using h.mem_note_attach job call
  | report r =>
    have hcomes : x = (n, r) ∧ w.IsUnclaimed r ↔
        x.1 = n ∧ Event.report r = .report x.2 ∧ w.IsUnclaimed x.2 := by
      constructor
      · rintro ⟨rfl, hr⟩
        exact ⟨rfl, rfl, hr⟩
      · rintro ⟨rfl, hr, hu⟩
        obtain rfl := Event.report.inj hr
        exact ⟨rfl, hu⟩
    rw [h.mem_note_report, hcomes]
    simp [Event.IsFailAll]
  | forget call => simp [note, not_leaves_forget, Event.IsFailAll]
  | failAll reason => simp [note, Event.IsFailAll]

end Mirrors

theorem HasLeft.position_lt (h : HasLeft es x) : x.1 < es.length := by
  obtain ⟨before, e, after, rfl, hx, -⟩ := h
  have := (mirrors_run before).before x hx
  simp only [List.length_append, List.length_cons]
  omega

theorem mem_kept_iff : x ∈ kept es ↔ HasCome es x ∧ ¬ HasLeft es x := by
  induction es using List.reverseRecOn with
  | nil =>
    have hcome : ¬ HasCome [] x := by
      rintro ⟨before, e, after, h, -⟩
      exact absurd h (by simp)
    exact iff_of_false List.not_mem_nil fun h => hcome h.1
  | append_singleton es e ih =>
    rw [kept_concat, (mirrors_run es).mem_note, hasCome_concat, hasLeft_concat]
    -- What comes now has the position after all that are kept or have left.
    have hnew : x.1 = es.length → x ∉ kept es ∧ ¬ HasLeft es x := fun hx =>
      ⟨fun hk => Nat.ne_of_lt ((mirrors_run es).before x hk) hx,
        fun hl => Nat.ne_of_lt hl.position_lt hx⟩
    tauto

/-! ## Who waits -/

/-- A call that waits has just been attached to a job of which no report is kept, or it waited
before, and no last report of the job came. -/
theorem waiting_step {job call : Nat} (h : (job, call) ∈ (w.step e).1.waiting) :
    (job, call) ∈ w.waiting ∧ ¬ e.Ends job ∨
      e = .attach job call ∧ ∀ r ∈ w.early, r.id ≠ job := by
  cases e with
  | attach job' call' =>
    rcases attach_cases w job' call' with ⟨r, -, ha⟩ | ⟨hnone, ha⟩ <;>
      rw [Watch.step, ha] at h
    · exact .inl ⟨h, id⟩
    · rcases Table.mem_insert.1 h with ⟨h, -⟩ | h
      · exact .inl ⟨h, id⟩
      · obtain ⟨rfl, rfl⟩ := Prod.mk.inj h
        exact .inr ⟨rfl, by simpa using hnone⟩
  | report r =>
    left
    rw [Watch.step, Watch.report] at h
    split at h
    · split at h
      · obtain ⟨hmem, hne⟩ := Table.mem_erase.1 h
        exact ⟨hmem, fun hends => hne hends.1.symm⟩
      · rename_i hfree
        refine ⟨h, fun hends => Table.lookup_eq_none.1 hfree ?_⟩
        exact List.mem_map.2 ⟨(job, call), h, hends.1.symm⟩
    · rename_i hlast
      exact ⟨h, fun hends => hlast hends.2⟩
  | forget call' => exact .inl ⟨List.mem_of_mem_filter h, id⟩
  | failAll reason => cases h

theorem waitsSince_of_mem {job call : Nat} (h : (job, call) ∈ (run {} es).1.waiting) :
    WaitsSince es job call := by
  induction es using List.reverseRecOn with
  | nil => cases h
  | append_singleton es e ih =>
    rw [run_concat] at h
    rw [waitsSince_concat]
    refine (waiting_step h).imp (fun ⟨h, hends⟩ => ⟨ih h, hends⟩) ?_
    rintro ⟨he, hnone⟩
    refine ⟨he, fun x hx => hnone x.2 ?_⟩
    rw [(mirrors_run es).early]
    exact List.mem_map_of_mem hx

/-- **Reports that come early are accounted for.** Whatever happens to a watch, it keeps no report
of a job that a call waits for: each such call was attached when none was kept, and none has come
since. There are `earlyCapacity` reports at most, all of them last reports, in the order in which
they came. They are those that came since all calls last ended and found nobody waiting, but for the
ones that have left: each the oldest of a job when a call was attached to it, or the oldest of
`earlyCapacity` reports when another one came. -/
theorem early_reports_are_accounted_for (events : List Event) :
    (∀ job call, (job, call) ∈ (run {} events).1.waiting →
      (∀ r ∈ (run {} events).1.early, r.id ≠ job) ∧ WaitsSince events job call) ∧
    (run {} events).1.early.length ≤ earlyCapacity ∧
    (∀ r ∈ (run {} events).1.early, r.state.isTerminal = true) ∧
    (run {} events).1.early = (kept events).map (·.2) ∧
    (kept events).Pairwise (·.1 < ·.1) ∧
    ∀ x, x ∈ kept events ↔ HasCome events x ∧ ¬ HasLeft events x := by
  have hinv := inv_run events
  have hkept := mirrors_run events
  refine ⟨fun job call h => ⟨fun r hr hid => ?_, waitsSince_of_mem h⟩, hinv.room, fun r hr => ?_,
    hkept.early, hkept.sorted, fun x => mem_kept_iff⟩
  · have hnone := Table.lookup_eq_none.1 (hid ▸ hinv.early r hr)
    exact hnone (List.mem_map_of_mem (f := (·.1)) h)
  · rw [hkept.early] at hr
    obtain ⟨x, hx, rfl⟩ := List.mem_map.1 hr
    exact hkept.last x hx

example : kept [.report { id := 7, state := .failed }, .report { id := 7, state := .success },
    .report { id := 8, state := .running }, .attach 7 1, .report { id := 9, state := .aborted }] =
    [(1, { id := 7, state := .success }), (4, { id := 9, state := .aborted })] := by decide

end ServerLink.Job.Watch
