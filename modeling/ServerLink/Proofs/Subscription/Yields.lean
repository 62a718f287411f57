import ServerLink.Proofs.Subscription.Losses

/-!
# What a subscription yields

A reader that takes all there is, time and again, gets what the queue by itself holds each time
(`Queue.yields`), as long as nobody else reads (`Fanout.Spares`). After the end of the subscription
nothing more comes (`Queue.yields_of_closed`).
-/

namespace ServerLink

namespace Fanout

/-- Nobody but the subscriber reads its mailbox or gives it up; anybody may close the
subscription. -/
def Spares (s : Subscription) (es : List Event) : Prop :=
  ∀ s' a, .act s' a ∈ es → s'.key = s.key → s' = s ∧ a = .close

/-- Something has happened between two states of a fanout: others did these things, and among them
the subscriber, who took these values out and may have given its mailbox up. -/
def Course (f g : Fanout) (s : Subscription) (others : List Event) (taken : List Json) : Prop :=
  ∃ es, f.run es = g ∧ f.takenOut s es = taken ∧
    es.filter (fun e => e ≠ .act s .poll ∧ e ≠ .act s .discard) = others

end Fanout

namespace Queue

/-- The queue of a subscription after some events. -/
def hear (q : Queue) (s : Subscription) (es : List Fanout.Event) : Queue :=
  (q.run (Fanout.story s (!q.closed) es)).1

def emptied (q : Queue) : Queue := { q with values := [] }

/-- What somebody gets who takes all there is each time some events have happened. -/
def yields (q : Queue) (s : Subscription) : List (List Fanout.Event) → List Json
  | [] => []
  | es :: later => (q.hear s es).values ++ (q.hear s es).emptied.yields s later

end Queue

variable {f g i : Fanout} {s : Subscription} {q : Queue} {es es' : List Fanout.Event}
  {vs ws : List Json}

/-! ## Others -/

namespace Fanout

theorem Spares.nil : Spares s [] := fun _ _ h => (List.not_mem_nil h).elim

theorem Spares.append (h : Spares s es) (h' : Spares s es') : Spares s (es ++ es') :=
  fun s' a hm => (List.mem_append.mp hm).elim (h s' a) (h' s' a)

theorem Spares.tail {e : Event} (h : Spares s (e :: es)) : Spares s es :=
  fun s' a hm => h s' a (List.mem_cons_of_mem e hm)

theorem Spares.single {e : Event}
    (h : ∀ s' a, e = .act s' a → s'.key = s.key → s' = s ∧ a = .close) :
    Spares s [e] := fun s' a hm => h s' a (List.mem_singleton.mp hm).symm

section
variable (h : Spares s es)
include h

theorem Spares.ne_act {a : Act} (ha : a ≠ .close) : .act s a ∉ es :=
  fun hm => ha (h s a hm rfl).2

theorem Spares.owned : Owned s es := fun s' a hm hk => (h s' a hm hk).1

theorem Spares.orderly (f : Fanout) : f.Orderly s es := by
  induction es generalizing f with
  | nil => trivial
  | cons e es ih =>
    refine ⟨fun he => ?_, ih h.tail _⟩
    exact absurd (he ▸ List.mem_cons_self) (h.ne_act (a := .lieDown) (by simp))

/-- After its end nothing is told of a subscription that others spare. -/
theorem Spares.story_closed : story s false es = [] := by
  induction es with
  | nil => rfl
  | cons e es ih =>
    have silent : heard s false e = [] := by
      unfold heard
      split
      · rfl
      · rename_i hends
        cases e with
        | act s' a =>
          by_cases hs : s' = s
          · subst hs
            have := (h s' a List.mem_cons_self rfl).2
            subst this
            simp [Event.ends] at hends
          · simp [hs]
        | _ => simp
    rw [story, silent, Bool.false_and, ih h.tail]
    rfl

theorem Spares.finds_nil (f : Fanout) {e : Event} (he : e ∈ es) : f.finds s e = [] := by
  cases e with
  | act s' a =>
    by_cases hs : s' = s
    · subst hs
      obtain rfl := (h s' a he rfl).2
      simp [finds, Act.reads]
    · simp [finds, hs]
  | _ => rfl

theorem Spares.takenOut_nil (f : Fanout) : f.takenOut s es = [] := by
  induction es generalizing f with
  | nil => rfl
  | cons e es ih =>
    have others := ih h.tail (f.step e).1
    rw [takenOut] at others ⊢
    rw [findsAll, h.finds_nil f List.mem_cons_self, List.nil_append, others]

/-- The subscription goes on with its queue while others do something. -/
theorem Follows.hear (hf : f.Follows s q) : (f.run es).Follows s (q.hear s es) :=
  (hf.run h.owned (h.ne_act (by simp)) (h.orderly f)).1

end

theorem lastKey_le_run (f : Fanout) (es : List Event) : f.lastKey ≤ (f.run es).lastKey := by
  induction es generalizing f with
  | nil => exact Nat.le_refl _
  | cons e es ih => exact Nat.le_trans (f.lastKey_le_step e) (ih (f.step e).1)

/-- A subscription that is listed nowhere is not listed again. -/
theorem unlisted_run (hk : s.key ≤ f.lastKey) (hn : ∀ c, s.key ∉ f.subscribers c) (es : List Event)
    (c : String) : s.key ∉ (f.run es).subscribers c :=
  fun hm => hn c ((listed_run (s := ⟨c, s.key⟩) hk es).mp hm).1

/-! ## Courses -/

theorem findsAll_append (f : Fanout) (s : Subscription) (es es' : List Event) :
    f.findsAll s (es ++ es') = f.findsAll s es ++ (f.run es).findsAll s es' := by
  induction es generalizing f with
  | nil => rfl
  | cons e es ih => simp [findsAll, ih]

theorem Course.refl (f : Fanout) (s : Subscription) : Course f f s [] [] := ⟨[], rfl, rfl, rfl⟩

theorem Course.trans (hf : Course f g s es vs) (hg : Course g i s es' ws) :
    Course f i s (es ++ es') (vs ++ ws) := by
  obtain ⟨all, rfl, rfl, rfl⟩ := hf
  obtain ⟨all', rfl, rfl, rfl⟩ := hg
  refine ⟨all ++ all', run_append f all all', ?_, List.filter_append ..⟩
  rw [takenOut, findsAll_append, List.flatMap_append, takenOut, takenOut]

theorem Course.others (f : Fanout) (hs : Spares s es) : Course f (f.run es) s es [] := by
  refine ⟨es, rfl, hs.takenOut_nil f, List.filter_eq_self.mpr fun e he => decide_eq_true ⟨?_, ?_⟩⟩
  · rintro rfl
    exact hs.ne_act (by simp) he
  · rintro rfl
    exact hs.ne_act (by simp) he

theorem Course.poll (f : Fanout) (s : Subscription) :
    Course f (f.act s .poll).1 s [] (f.act s .poll).2.values :=
  ⟨[.act s .poll], rfl, by simp [takenOut, findsAll, finds, Act.reads], by simp⟩

theorem Course.discard (f : Fanout) (s : Subscription) : Course f (f.act s .discard).1 s [] [] :=
  ⟨[.act s .discard], rfl, by simp [takenOut, findsAll, finds, Act.reads], by simp⟩

/-- A read that waits finds what the queue lets it find. -/
theorem Follows.poll (hf : f.Follows s q) :
    (f.act s .poll).1.Follows s q.read.1 ∧ (f.act s .poll).2 = q.read.2 := by
  obtain ⟨hstep, hfinds⟩ := hf.step (e := .act s .poll)
    (fun s' a he hk => by cases he; rfl) (by simp) (by simp)
  have told : heard s (!q.closed) (.act s .poll) = [.read] := by simp [heard, Event.ends, Act.reads]
  rw [told] at hstep hfinds
  exact ⟨hstep, by simpa [finds, Act.reads, Queue.run, Queue.step] using hfinds⟩

end Fanout

/-! ## Yields -/

namespace Queue

open Fanout (Spares)

theorem hear_closed (q : Queue) (s : Subscription) (es : List Fanout.Event) :
    (q.hear s es).closed = (q.closed || es.any (·.ends s)) := by
  unfold hear
  induction es generalizing q with
  | nil => simp [Fanout.story, run]
  | cons e es ih =>
    have next := Fanout.closed_heard s q e
    rw [Fanout.story, run_append, ← Bool.not_or, ← next, ih, next, List.any_cons, Bool.or_assoc]

theorem hear_of_closed (hc : q.closed = true) (hs : Spares s es) : q.hear s es = q := by
  rw [hear, hc, Bool.not_true, hs.story_closed]
  rfl

theorem yields_of_closed (hc : q.closed = true) (hv : q.values = [])
    {batches : List (List Fanout.Event)} (hs : ∀ es ∈ batches, Spares s es) :
    q.yields s batches = [] := by
  induction batches with
  | nil => rfl
  | cons es later ih =>
    have same : (q.hear s es).emptied = q := by
      rw [hear_of_closed hc (hs es List.mem_cons_self), emptied, ← hv]
    rw [yields, same, hear_of_closed hc (hs es List.mem_cons_self), hv, List.nil_append]
    exact ih fun es' he => hs es' (List.mem_cons_of_mem _ he)

end Queue

end ServerLink
