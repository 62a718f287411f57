import ServerLink.Proofs.Link.Finished

/-!
# Calls that go on

Whoever makes a call goes on with it in the same way (`step_resume`). After the end of the
connection everybody in the line gets out of it by going on, so everybody's call comes to its end
(`call_comes_to_end`).
-/

namespace ServerLink.Link

/-- The event by which an actor goes on. -/
def Event.resumeOf (a : Actor) (w : Wakeup) (eager : Bool) : Event :=
  match a with
  | .reader => .resumeReader w
  | .probe => .resumeProbe w eager
  | .caller task => .resume task w eager

/-- What is asked of the call of an actor. -/
def asked (l : Link) (a : Actor) (eager : Bool) : Cancellation :=
  match a with
  | .reader => .no
  | .probe => cancellation l.stopped eager
  | .caller task => ((l.tasks.lookup task).map (l.cancellationOf eager)).getD .no

/-- Where an actor gets with what has become of its call. -/
def goOn (l : Link) (a : Actor) (p : Link × Exchange.Progress) : Link :=
  match a with
  | .reader => p.1
  | .probe => continueProbing p
  | .caller task => ((l.tasks.lookup task).map (goOnWith task p)).getD p.1

/-- Everybody goes on, and whatever is being written gets written. -/
def Patient (events : List Event) : Prop := ∀ e ∈ events, ∃ a, e = .resumeOf a .written false

/-- Who is in the line before an actor. -/
def ahead (l : Link) (a : Actor) : List Actor := l.line.takeWhile (· ≠ a)

variable {l m : Link} {a b : Actor} {x y : Exchange} {h h' k : Hand} {reason : LinkError}

/-! ## Going on -/

theorem step_resume (hx : l.callOf a = some x) (w : Wakeup) (eager : Bool) :
    l.step (.resumeOf a w eager) = l.goOn a (l.resume a x (l.asked a eager) w) := by
  cases a with
  | reader => cases hx
  | probe =>
    cases hp : l.probe with
    | asking y =>
      simp only [callOf, hp, Probe.State.exchange?, Option.some.injEq] at hx
      subst hx
      simp only [Event.resumeOf, step, hp, goOn, asked]
    | _ => simp [callOf, hp, Probe.State.exchange?] at hx
  | caller task =>
    obtain ⟨t, ht, hx⟩ := Option.bind_eq_some_iff.1 hx
    simp only [Event.resumeOf, step, goOn, asked, ht, resumeTask_eq hx, Option.map_some,
      Option.getD_some]

theorem goOn_deeds (hx : l.callOf a = some x) : ∃ h : Hand, l.hand a = h.making x ∧
    ∀ {m k p}, Deeds a (m, k) (p.1, h.after p.2) →
      Deeds a (m, k) (l.goOn a p, (l.goOn a p).hand a) := by
  cases a with
  | reader => cases hx
  | probe =>
    obtain ⟨h, hh⟩ := hand_of_callOf hx
    cases hp : l.probe with
    | asking y =>
      simp only [callOf, hp, Probe.State.exchange?, Option.some.injEq] at hx
      subst hx
      exact ⟨{}, by simp only [hand, hp]; rfl, continueProbing_deeds⟩
    | _ => simp [callOf, hp, Probe.State.exchange?] at hx
  | caller task =>
    obtain ⟨t, ht, hx⟩ := Option.bind_eq_some_iff.1 hx
    obtain ⟨h, hh, hturn⟩ := goOnWith_turn task hx
    refine ⟨h, (hand_of_lookup ht).trans hh, fun hp => ?_⟩
    simp only [goOn, ht, Option.map_some, Option.getD_some]
    exact hturn hp

/-- A call that goes on is still in hand, with whatever else was. -/
theorem goOn_going (hx : l.callOf a = some x) (m : Link) (y : Exchange) :
    (l.goOn a (m, .going y)).callOf a = some y ∧
      (l.goOn a (m, .going y)).hand a = (l.hand a).making y ∧
      (l.goOn a (m, .going y)).line = m.line := by
  cases a with
  | reader => cases hx
  | probe =>
    cases hp : l.probe with
    | asking z => exact ⟨rfl, by simp only [hand, hp]; rfl, rfl⟩
    | _ => simp [callOf, hp, Probe.State.exchange?] at hx
  | caller task =>
    obtain ⟨t, ht, hx⟩ := Option.bind_eq_some_iff.1 hx
    have hset : ∀ u : Task, u.exchange? = some y → u.hand = t.hand.making y →
        (m.setTask task u).callOf (.caller task) = some y ∧
          (m.setTask task u).hand (.caller task) = (l.hand (.caller task)).making y ∧
          (m.setTask task u).line = m.line := by
      intro u hy hu
      refine ⟨?_, by rw [hand_setTask, hand_of_lookup ht, hu], rfl⟩
      show ((Table.insert m.tasks task u).lookup task).bind Task.exchange? = some y
      rw [Table.lookup_insert_self]
      exact hy
    simp only [goOn, ht, Option.map_some, Option.getD_some]
    cases t <;> cases hx <;> exact hset _ rfl rfl

/-! ## Places in the line -/

/-- What somebody else does brings nobody further back in the line. -/
theorem Deed.ahead (hd : Deed b (l, h) (m, h')) (hne : a ≠ b) (ha : a ∈ l.line) :
    a ∈ m.line ∧ (m.ahead a).length ≤ (l.ahead a).length := by
  have hsame : m.line = l.line → a ∈ m.line ∧ (m.ahead a).length ≤ (l.ahead a).length := by
    intro hline
    rw [Link.ahead, Link.ahead, hline]
    exact ⟨ha, Nat.le_refl _⟩
  cases hd with
  | quiet hq => exact hsame hq.line
  | teardown reason => exact hsame (line_perform l (.teardown reason))
  | join =>
    refine ⟨List.mem_append_left _ ha, Nat.le_of_eq ?_⟩
    rw [Link.ahead, joinLine, List.takeWhile_append, if_neg]
    · rfl
    · intro hall
      have := (List.takeWhile_eq_self_iff.1 ((List.takeWhile_sublist _).eq_of_length hall)) a ha
      simp at this
  | leave =>
    refine ⟨List.mem_filter.2 ⟨ha, by simpa using hne⟩, ?_⟩
    rw [Link.ahead, leaveLine, List.takeWhile_filter]
    refine Nat.le_trans (List.length_filter_le _ _) (Nat.le_of_eq ?_)
    rw [Link.ahead]
    congr 2
    funext c
    by_cases hc : c = a
    · simp [hc, hne]
    · simp [hc]
  | register | forget | subscribe | discard | handOver | ask | learn => exact hsame rfl

theorem Deeds.ahead (hd : Deeds b (l, h) (m, h')) (hne : a ≠ b) (ha : a ∈ l.line) :
    a ∈ m.line ∧ (m.ahead a).length ≤ (l.ahead a).length := by
  refine hd.keep (P := fun m _ => a ∈ m.line ∧ (m.ahead a).length ≤ (l.ahead a).length)
    ⟨ha, Nat.le_refl _⟩ ?_
  rintro m h n h' ⟨hm, hle⟩ hd
  obtain ⟨hn, hle'⟩ := hd.ahead hne hm
  exact ⟨hn, Nat.le_trans hle' hle⟩

/-- When the first in the line leaves it, everybody gets further to the front. -/
theorem ahead_leaveLine (hb : l.isTurn b = true) (hne : a ≠ b) (ha : a ∈ l.line) :
    a ∈ (l.leaveLine b).line ∧ ((l.leaveLine b).ahead a).length < (l.ahead a).length := by
  obtain ⟨rest, hline⟩ : ∃ rest, l.line = b :: rest := by
    have hhead : l.line.head? = some b := by simpa [isTurn] using hb
    exact List.head?_eq_some_iff.1 hhead
  refine ⟨List.mem_filter.2 ⟨ha, by simpa using hne⟩, ?_⟩
  have hpred : (fun c => !decide (c ≠ b) || decide (c ≠ a)) = fun c : Actor => decide (c ≠ a) := by
    funext c
    by_cases hc : c = a
    · simp [hc, hne]
    · simp [hc]
  rw [ahead, ahead, leaveLine, List.takeWhile_filter, hpred, hline,
    List.takeWhile_cons_of_pos (by simpa using Ne.symm hne), List.filter_cons_of_neg (by simp),
    List.length_cons]
  exact Nat.lt_succ_of_le (List.length_filter_le _ _)

/-! ## Whose turn it is -/

theorem release_leaves (ht : l.isTurn a = true) : Deeds a (l.leaveLine a, {})
    ((l.release a .queued).1, ((l.release a .queued).2.map Release.hand).getD {}) := by
  simp only [release, ht, ↓reduceIte]
  split
  · exact Quiet.place rfl rfl rfl rfl rfl fun b _ => SamePlace.refl l b
  · exact .refl

theorem resume_leaves (ht : l.isTurn a = true)
    (hx : x.stage = .writing ∨ x.stage = .queued ∧ l.writable = false) (c : Cancellation) :
    ∃ k, Deeds a (l.leaveLine a, k)
      ((l.resume a x c .written).1, h.after (l.resume a x c .written).2) := by
  rcases hx with hx | ⟨hx, hw⟩
  · simp only [resume, hx]
    exact ⟨_, await_deeds rfl c .nothing⟩
  · simp only [resume, hx, enter, ht, hw, ↓reduceIte, Bool.false_eq_true]
    exact ⟨{ h.making x with inLine := false }, (Deed.forget rfl).deeds⟩

/-- Whoever is first in the line leaves it by going on, unless it begins to write then. -/
theorem step_leaves (hl : l.Tidy) (ht : l.isTurn b = true)
    (hx : ∀ x, l.callOf b = some x → x.stage = .queued → l.writable = false) :
    ∃ k h, Deeds b (l.leaveLine b, k) (l.step (.resumeOf b .written false), h) := by
  have hin : (l.hand b).inLine = true := by
    refine (hl.queued.mem b).1 (List.mem_of_mem_head? ?_)
    simpa [isTurn] using ht
  cases hcall : l.callOf b with
  | some x =>
    obtain ⟨h, hh, hgo⟩ := goOn_deeds hcall
    have hstage : x.stage = .writing ∨ x.stage = .queued ∧ l.writable = false := by
      rw [hh] at hin
      cases hs : x.stage with
      | queued => exact .inr ⟨rfl, hx x hcall hs⟩
      | writing => exact .inl rfl
      | waiting => simp [Hand.making, hs] at hin
    obtain ⟨k, hk⟩ := resume_leaves (h := h) ht hstage (l.asked b false)
    rw [step_resume hcall]
    exact ⟨k, _, hgo hk⟩
  | none =>
    cases b with
    | reader =>
      simp only [hand] at hin
      cases hr : l.reader with
      | releasing stage =>
        rw [hr] at hin
        cases stage with
        | queued =>
          simp only [Event.resumeOf, step, hr]
          exact ⟨_, _, continueReader_deeds (release_leaves ht)⟩
        | closing => cases hin
      | _ => rw [hr] at hin; cases hin
    | probe =>
      simp only [hand] at hin
      cases hp : l.probe with
      | asking x => simp [callOf, hp, Probe.State.exchange?] at hcall
      | releasing stage =>
        rw [hp] at hin
        cases stage with
        | queued =>
          simp only [Event.resumeOf, step, hp]
          exact ⟨_, _, continueProbe_deeds (release_leaves ht)⟩
        | closing => cases hin
      | _ => rw [hp] at hin; cases hin
    | caller task =>
      cases htask : l.tasks.lookup task with
      | none =>
        rw [hand_of_lookup_none htask] at hin
        cases hin
      | some t =>
        rw [hand_of_lookup htask] at hin
        rw [callOf, htask] at hcall
        cases t with
        | close stage =>
          cases stage with
          | queued =>
            simp only [Event.resumeOf, step, htask, resumeTask]
            exact ⟨_, _, continueClose_turn (release_leaves ht)⟩
          | closing => cases hin
        | awaitJobs _ _ _ | join => cases hin
        | _ => cases hcall

/-- A call that is first in the line begins to write by going on, if it can. -/
theorem step_writes (hcall : l.callOf a = some x) (hx : x.stage = .queued)
    (ht : l.isTurn a = true) (hw : l.writable = true) :
    (l.step (.resumeOf a .written false)).callOf a = some { x with stage := .writing } ∧
      (l.step (.resumeOf a .written false)).hand a =
        (l.hand a).making { x with stage := .writing } ∧
      (l.step (.resumeOf a .written false)).line = l.line := by
  have hresume : l.resume a x (l.asked a false) .written =
      ({ l with sent := l.sent ++ [x.frame] }, .going { x with stage := .writing }) := by
    simp only [resume, hx, enter, ht, hw, ↓reduceIte]
  rw [step_resume hcall, hresume]
  exact goOn_going hcall { l with sent := l.sent ++ [x.frame] } { x with stage := .writing }

theorem resumeOf_actor (a : Actor) (w : Wakeup) (eager : Bool) :
    (Event.resumeOf a w eager).actor? = some a := by
  cases a <;> rfl

theorem others_resumeOf (hne : a ≠ b) (l : Link) (w : Wakeup) (eager : Bool) :
    SamePlace l (l.step (.resumeOf b w eager)) a :=
  Deeds.others (step_turn (resumeOf_actor b w eager)) hne

/-- Whoever is first in the line gets out of it by going on once or twice, and everybody behind
comes further to the front. -/
theorem line_moves_up (hl : l.Tidy) (hb : l.isTurn b = true) (hne : a ≠ b) (ha : a ∈ l.line) :
    ∃ events, Patient events ∧ SamePlace l (l.run events) a ∧ a ∈ (l.run events).line ∧
      ((l.run events).ahead a).length < (l.ahead a).length := by
  have hpatient : ∀ n, Patient (List.replicate n (.resumeOf b .written false)) :=
    fun n e he => ⟨b, List.eq_of_mem_replicate he⟩
  have hleave : ∀ m : Link, m.Tidy → m.line = l.line → SamePlace l m a →
      (∀ x, m.callOf b = some x → x.stage = .queued → m.writable = false) →
      SamePlace l (m.step (.resumeOf b .written false)) a ∧
        a ∈ (m.step (.resumeOf b .written false)).line ∧
        ((m.step (.resumeOf b .written false)).ahead a).length < (l.ahead a).length := by
    intro m hm hline hplace hx
    have hturn : m.isTurn b = true := by rw [isTurn, hline]; exact hb
    obtain ⟨k, h, hd⟩ := step_leaves hm hturn hx
    obtain ⟨hin, hlt⟩ := ahead_leaveLine hturn hne (hline ▸ ha)
    obtain ⟨hin', hle⟩ := Deeds.ahead hd hne hin
    refine ⟨hplace.trans (others_resumeOf hne m .written false), hin', Nat.lt_of_le_of_lt hle ?_⟩
    rwa [show l.ahead a = m.ahead a by rw [ahead, ahead, hline]]
  by_cases hx : ∀ x, l.callOf b = some x → x.stage = .queued → l.writable = false
  · exact ⟨_, hpatient 1, hleave l hl rfl (SamePlace.refl l a) hx⟩
  · simp only [not_forall, exists_prop, Bool.not_eq_false] at hx
    obtain ⟨x, hcall, hstage, hw⟩ := hx
    obtain ⟨hcall', -, hline'⟩ := step_writes hcall hstage hb hw
    refine ⟨_, hpatient 2, hleave _ (hl.event _) hline' (others_resumeOf hne l .written false) ?_⟩
    intro y hy hq
    rw [hcall'] at hy
    cases hy
    cases hq

/-! ## The end of a call -/

/-- After the end of the connection the end of every call in hand is there to see. -/
theorem Tidy.slot_of_closed (hl : l.Tidy) (hc : l.calls.closed = some reason)
    (hx : l.callOf a = some x) : ∃ how, l.slots.lookup x.id = some how := by
  rcases hl.known_of_callOf hx with ho | hs
  · have hopen := hl.owned.calls.isOpen (Calls.mem_held.2 ho)
    rw [hc] at hopen
    cases hopen
  · exact Option.isSome_iff_exists.1 hs

theorem await_ends {how : Slot.End} (hs : l.slots.lookup x.id = some how) (c : Cancellation)
    (w : Wakeup) : ∃ m o, l.await x c w = (m, .over o) := by
  unfold await
  split
  · exact ⟨_, _, rfl⟩
  · simp only [endOf?, hs, Option.map_some]
    exact ⟨_, _, rfl⟩

/-- A call whose request is written, or never will be, is over at once. -/
theorem resume_ends {how : Slot.End} (hs : l.slots.lookup x.id = some how)
    (hx : x.stage = .queued → l.isTurn a = true ∧ l.writable = false) (c : Cancellation) :
    ∃ m o, l.resume a x c .written = (m, .over o) := by
  unfold resume
  split
  · rename_i hstage
    obtain ⟨ht, hw⟩ := hx hstage
    simp only [enter, ht, hw, ↓reduceIte, Bool.false_eq_true]
    exact ⟨_, _, rfl⟩
  · exact await_ends (l := l.leaveLine a) (x := { x with stage := .waiting }) hs c .nothing
  · exact await_ends hs c .written

/-- **A call comes to its end.** After the end of the connection, if everybody goes on, so does a
call in hand, until it is over. -/
theorem call_comes_to_end (hi : l.Inv) (hl : l.Tidy) (hc : l.calls.closed = some reason)
    (hx : l.callOf a = some x) : ∃ events y, Patient events ∧
      (l.run events).callOf a = some y ∧ y.id = x.id ∧
      (l.run events).hand a = (l.hand a).making y ∧
      ∀ c, ∃ m o, (l.run events).resume a y c .written = (m, .over o) := by
  obtain ⟨h, hh⟩ := hand_of_callOf hx
  have hmaking : l.hand a = (l.hand a).making x := by
    rw [hh]
    rfl
  by_cases hstage : x.stage = .queued
  · have hin : a ∈ l.line := by
      rw [hl.queued.mem, hh]
      simp [Hand.making, hstage]
    -- by the number of those ahead
    induction hn : (l.ahead a).length using Nat.strongRecOn generalizing l with
    | _ n ih =>
      obtain ⟨b, hb⟩ : ∃ b, l.isTurn b = true := by
        cases hline : l.line with
        | nil => rw [hline] at hin; cases hin
        | cons b rest => exact ⟨b, by simp [isTurn, hline]⟩
      by_cases hba : a = b
      · subst hba
        cases hw : l.writable with
        | true =>
          obtain ⟨hcall, hhand, -⟩ := step_writes hx hstage hb hw
          obtain ⟨how, hs⟩ := (hl.event _).slot_of_closed (closed_event hi hc _) hcall
          refine ⟨[.resumeOf a .written false], _, fun e he => ⟨a, List.mem_singleton.1 he⟩,
            hcall, rfl, hhand, fun c => resume_ends hs (fun hq => ?_) c⟩
          cases hq
        | false =>
          obtain ⟨how, hs⟩ := hl.slot_of_closed hc hx
          exact ⟨[], x, (fun _ he => by cases he), hx, rfl, hmaking,
            fun c => resume_ends hs (fun _ => ⟨hb, hw⟩) c⟩
      · obtain ⟨events, hpatient, hplace, hin', hlt⟩ := line_moves_up hl hb hba hin
        have hx' : (l.run events).callOf a = some x := (callOf_eq hplace).trans hx
        have hhand : (l.run events).hand a = l.hand a := hand_eq hplace
        obtain ⟨later, y, hlater, hy⟩ := ih _ (hn ▸ hlt) (hi.run events) (hl.run events)
          (closed_run hi hc events) hx' (hhand.trans hh) (by rw [hhand]; exact hmaking) hin' rfl
        rw [hhand] at hy
        refine ⟨events ++ later, y, fun e he => ?_, by rw [run_append]; exact hy⟩
        rcases List.mem_append.1 he with he | he
        · exact hpatient e he
        · exact hlater e he
  · obtain ⟨how, hs⟩ := hl.slot_of_closed hc hx
    exact ⟨[], x, (fun _ he => by cases he), hx, rfl, hmaking,
      fun c => resume_ends hs (fun hq => absurd hq hstage) c⟩

end ServerLink.Link
