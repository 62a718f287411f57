import ServerLink.Proofs.Link.Handshake

/-!
# Closing a connection that nobody else uses

A task that closes a connection gives the write half back, or leaves that to the reader, and waits
for the reader to end (`Closes`). While it is not over, somebody can go on (`ClosedBy.goes_on`), and
when it is over, nothing of the connection is left (`ClosedBy.tornDown`).
-/

namespace ServerLink.Link

/-- How far a task has got that closes the connection. -/
inductive Closes (l : Link) (task : Nat) : Prop
  | queued (ht : l.tasks.lookup task = some (.close .queued)) (hr : l.results.lookup task = none)
      (hj : l.joinable = true)
  | leaving (ht : l.tasks.lookup task = some (.close .closing))
      (hr : l.results.lookup task = none) (hj : l.joinable = true) (hw : l.writable = false)
  | joining (ht : l.tasks.lookup task = some .join) (hr : l.results.lookup task = none)
      (hw : l.writable = false)
  | done (ht : l.tasks.lookup task = none) (hr : l.results.lookup task = some (.ok .done))
      (hw : l.writable = false) (hq : l.reader = .ended)

/-- A task closes a connection that has ended and that nobody else uses. -/
structure ClosedBy (l : Link) (task : Nat) : Prop where
  inv : l.Inv
  tidy : l.Tidy
  alone : l.Alone task
  closes : l.Closes task
  ended : l.isOpen = false

/-- What is left of a connection that has been closed: the write half is given back, the reader has
ended, and no task is under way. -/
structure TornDown (l : Link) : Prop where
  ended : l.isOpen = false
  stopped : l.stopped = true
  written : l.writable = false
  quiet : l.isQuiet = true
  tasks : ∀ n, l.tasks.lookup n = none

/-- Everybody goes on, whatever is being written gets written, and the reader sees when it is to
stop. -/
def Onward (events : List Event) : Prop :=
  ∀ e ∈ events, (∃ a, e = .resumeOf a .written false) ∨ e = .stopReading

variable {l m : Link} {a : Actor} {task n : Nat} {e : Event} {r : Result}

/-! ## What others do -/

theorem writable_perform (l : Link) (o : Op) : (l.perform o).writable = l.writable := by
  rw [perform_frame]

/-- The write half is not taken back, and nobody undertakes to wait for the end. -/
structure Steadfast (l m : Link) : Prop where
  joinable : m.joinable = l.joinable
  writable : l.writable = false → m.writable = false

namespace Steadfast

theorem refl (l : Link) : Steadfast l l := ⟨rfl, id⟩

theorem perform (l : Link) (o : Op) : Steadfast l (l.perform o) :=
  ⟨(Aside.perform l o).joinable, fun hw => (writable_perform l o).trans hw⟩

theorem trans {k : Link} (h : Steadfast k l) (h' : Steadfast l m) : Steadfast k m :=
  ⟨h'.joinable.trans h.joinable, fun hw => h'.writable (h.writable hw)⟩

theorem release (l : Link) (a : Actor) (stage : Release) : Steadfast l (l.release a stage).1 := by
  unfold Link.release
  repeat' split
  · exact ⟨rfl, fun _ => rfl⟩
  · exact ⟨rfl, id⟩
  · exact refl l
  · exact refl l

theorem continueReader {p : Link × Option Release} (h : Steadfast l p.1) :
    Steadfast l (Link.continueReader p) := by
  obtain ⟨m, stage⟩ := p
  cases stage <;> exact ⟨h.joinable, h.writable⟩

theorem stopReader (l : Link) : Steadfast l l.stopReader :=
  continueReader ((show Steadfast l (l.joinLine .reader) from ⟨rfl, id⟩).trans (release _ _ _))

/-- The reader, and what is nobody's turn. -/
theorem event (ha : e.actor? = some .reader ∨ e.actor? = none) : Steadfast l (l.step e) := by
  rcases ha with ha | ha
  · cases e with
    | receive i =>
      have hend : ∀ why, Steadfast l (l.teardown why).stopReader := fun why =>
        (perform l (.teardown why)).trans (stopReader _)
      dsimp only [step]
      split
      · cases i <;> first | exact hend _ | cases ha
      · exact refl l
    | stopReading =>
      dsimp only [step]
      split
      · exact stopReader l
      · exact refl l
    | resumeReader w =>
      dsimp only [step]
      split
      · exact refl l
      · exact refl l
      · exact continueReader (release l _ _)
      · cases w <;> exact ⟨rfl, id⟩
    | _ => cases ha
  · rcases step_shared (l := l) ha with ⟨o, -, hs⟩ | ⟨fired, hs⟩ <;> rw [hs]
    · exact perform l o
    · exact ⟨rfl, id⟩

end Steadfast

/-- A reader that has ended does nothing more. -/
theorem reader_ended (hq : l.reader = .ended) (e : Event) : (l.step e).reader = .ended := by
  by_cases ha : e.actor? = some .reader
  · have hsame : l.step e = l := by
      cases e with
      | receive _ | stopReading | resumeReader _ => simp [step, hq]
      | _ => cases ha
    rw [hsame]
    exact hq
  · have hplace : (l.step e).reader = l.reader := step_others ha
    exact hplace.trans hq

/-! ## What the task does -/

theorem isQuiet_of_alone (ha : l.Alone task) : l.isQuiet = true ↔ l.reader = .ended := by
  simp [isQuiet, ha.probe]

theorem startJoin_closes (ha : l.probe = .off) (hr : l.results.lookup task = none)
    (hj : l.joinable = true) (hw : l.writable = false) : (l.startJoin task).Closes task := by
  unfold startJoin
  by_cases hq : l.isQuiet = true
  · rw [if_neg (by simp [hq])]
    refine .done Table.lookup_erase_self Table.lookup_insert_self hw ?_
    show l.reader = .ended
    simpa [isQuiet, ha] using hq
  · rw [if_pos (by simp [hj, hq])]
    exact .joining Table.lookup_insert_self hr hw

/-- A task that is to give the write half back does so when it is its turn, unless somebody has done
so before. -/
theorem release_closes (ha : l.probe = .off) (hr : l.results.lookup task = none)
    (hj : l.joinable = true) :
    (continueClose task (l.release (.caller task) .queued)).Closes task := by
  simp only [release]
  split
  · split
    · exact .leaving Table.lookup_insert_self hr hj rfl
    · rename_i hw
      have hw : l.writable = false := by simpa using hw
      exact startJoin_closes (l := l.leaveLine (.caller task)) ha hr hj hw
  · exact .queued Table.lookup_insert_self hr hj

theorem startClose_closes (ha : l.probe = .off) (hr : l.results.lookup task = none)
    (hj : l.joinable = true) : (l.startClose task).Closes task := by
  have hframe : ∀ why, l.teardown why = { l with
      calls := (l.teardown why).calls, fanout := (l.teardown why).fanout,
      slots := (l.teardown why).slots, stopped := (l.teardown why).stopped } := fun why =>
    perform_frame l (.teardown why)
  refine release_closes (l := (l.teardown (.closed "client closed")).joinLine (.caller task))
    ?_ ?_ ?_
  · rw [joinLine, hframe]
    exact ha
  · rw [joinLine, hframe]
    exact hr
  · rw [joinLine, hframe]
    exact hj

/-- The task goes on. -/
theorem Closes.resume (h : l.Closes task) (ha : l.Alone task) (w : Wakeup) (eager : Bool) :
    (l.step (.resume task w eager)).Closes task := by
  cases h with
  | queued ht hr hj =>
    simp only [step, ht, resumeTask]
    exact release_closes ha.probe hr hj
  | leaving ht hr hj hw =>
    simp only [step, ht, resumeTask]
    split
    · exact .leaving ht hr hj hw
    · exact .leaving ht hr hj hw
    all_goals exact startJoin_closes ha.probe hr hj hw
  | joining ht hr hw =>
    simp only [step, ht, resumeTask]
    split
    · rename_i hq
      exact .done Table.lookup_erase_self Table.lookup_insert_self hw ((isQuiet_of_alone ha).1 hq)
    · exact .joining ht hr hw
  | done ht hr hw hq =>
    simp only [step, ht]
    exact .done ht hr hw hq

theorem Closes.congr (h : l.Closes task) (hp : SamePlace l m (.caller task)) (hs : Steadfast l m)
    (hq : l.reader = .ended → m.reader = .ended) : m.Closes task := by
  cases h with
  | queued ht hr hj => exact .queued (hp.1.trans ht) (hp.2.trans hr) (hs.joinable.trans hj)
  | leaving ht hr hj hw =>
    exact .leaving (hp.1.trans ht) (hp.2.trans hr) (hs.joinable.trans hj) (hs.writable hw)
  | joining ht hr hw => exact .joining (hp.1.trans ht) (hp.2.trans hr) (hs.writable hw)
  | done ht hr hw hend => exact .done (hp.1.trans ht) (hp.2.trans hr) (hs.writable hw) (hq hend)

namespace ClosedBy

/-- A task begins to close the connection. -/
theorem start (hi : l.Inv) (hl : l.Tidy) (ha : l.Alone task) (ht : l.tasks.lookup task = none)
    (hr : l.results.lookup task = none) (hj : l.joinable = true) :
    (l.startClose task).ClosedBy task := by
  have hstep : l.step (.start task .close) = l.startClose task := by
    simp [step, isUsed, ht, hr, startTask]
  have hclosed : (l.startClose task).calls.closed =
      some (l.calls.closed.getD (.closed "client closed")) := by
    have hstopped : ((l.teardown (.closed "client closed")).joinLine (.caller task)).stopped =
        true := teardown_stopped l _
    exact Moves.closed (continueClose_moves hstopped .queued : Moves (fun _ => True) _ _)
      (closed_teardown l _)
  rw [← hstep]
  refine ⟨hi.event _, hl.event _, ha.of_turn (.inl rfl), ?_, ?_⟩ <;> rw [hstep]
  · exact startClose_closes ha.probe hr hj
  · rw [isOpen, hclosed]
    rfl

variable (h : l.ClosedBy task)
include h

/-- Whatever happens, the task goes on closing, unless it is given up. -/
theorem event (he : e.Within task) : (l.step e).ClosedBy task := by
  refine ⟨h.inv.event e, h.tidy.event e, h.alone.event he, ?_, closed_stays h.inv h.ended e⟩
  rcases h.alone.turns he with (ha | ha) | hsame
  · cases e with
    | resume n w eager =>
      cases ha
      exact h.closes.resume h.alone w eager
    | start n o => exact absurd rfl (he.start n o)
    | handshake n c => exact absurd rfl (he.handshake n c)
    | drop n =>
      cases ha
      exact absurd rfl he.drop
    | receive i => cases i <;> cases ha
    | _ => cases ha
  · refine h.closes.congr (step_others ?_) (.event ha) fun hq => reader_ended hq e
    rcases ha with ha | ha <;> simp [ha]
  · rw [hsame]
    exact h.closes

/-- When the task is over, nothing of the connection is left. -/
theorem tornDown (hr : l.results.lookup task ≠ none) : l.TornDown := by
  have hstopped : l.stopped = true := by
    have hopen := h.ended
    rw [h.inv.stopped]
    simpa [isOpen] using hopen
  cases h.closes with
  | queued _ hnone | leaving _ hnone | joining _ hnone => exact absurd hnone hr
  | done ht _ hw hq =>
    refine ⟨h.ended, hstopped, hw, (isQuiet_of_alone h.alone).2 hq, fun n => ?_⟩
    by_cases hn : n = task
    · rw [hn, ht]
    · exact h.alone.others n hn

end ClosedBy

/-! ## How a close comes to its end -/

/-- How much the task that closes still has to do. -/
def leftToTask : Option Task → Nat
  | some (.close .queued) => 3
  | some (.close .closing) => 2
  | some _ => 1
  | none => 0

/-- How much the reader still has to do. -/
def leftToReader : Reader.State → Nat
  | .running => 3
  | .releasing .queued => 2
  | .releasing .closing => 1
  | .ended => 0

def leftToDo (l : Link) (task : Nat) : Nat :=
  leftToTask (l.tasks.lookup task) + leftToReader l.reader

theorem resumeOf_within (a : Actor) (w : Wakeup) (eager : Bool) :
    (Event.resumeOf a w eager).Within task := by
  cases a <;> exact ⟨by rintro _ _ ⟨⟩, by rintro _ _ ⟨⟩, by rintro ⟨⟩, by rintro _ ⟨⟩, by rintro ⟨⟩⟩

theorem Onward.within {later : List Event} (h : Onward later) (he : e ∈ later) :
    e.Within task := by
  rcases h e he with ⟨a, rfl⟩ | rfl
  · exact resumeOf_within a _ _
  · exact ⟨by rintro _ _ ⟨⟩, by rintro _ _ ⟨⟩, by rintro ⟨⟩, by rintro _ ⟨⟩, by rintro ⟨⟩⟩

/-- Whoever is first in the line gets out of it. -/
theorem release_first (ht : l.isTurn a = true) : (l.release a .queued).2 ≠ some .queued := by
  simp only [release, ht, ↓reduceIte]
  split <;> simp

theorem leftToReader_continue {p : Link × Option Release} (hp : p.2 ≠ some .queued) :
    leftToReader (continueReader p).reader < 2 := by
  obtain ⟨m, r⟩ := p
  rcases r with - | stage
  · exact Nat.zero_lt_two
  · cases stage with
    | queued => exact absurd rfl hp
    | closing => exact Nat.one_lt_two

theorem leftToReader_le (r : Reader.State) (hr : r ≠ .running) : leftToReader r ≤ 2 := by
  cases r with
  | running => exact absurd rfl hr
  | releasing stage => cases stage <;> decide
  | ended => decide

theorem leftToTask_startJoin (l : Link) :
    leftToTask ((l.startJoin task).tasks.lookup task) ≤ 1 := by
  unfold startJoin
  split
  · exact Nat.le_of_eq (congrArg leftToTask Table.lookup_insert_self)
  · exact (Nat.le_of_eq (congrArg leftToTask Table.lookup_erase_self)).trans (Nat.zero_le 1)

theorem leftToTask_continue {p : Link × Option Release} (hp : p.2 ≠ some .queued) :
    leftToTask ((continueClose task p).tasks.lookup task) < 3 := by
  obtain ⟨m, r⟩ := p
  rcases r with - | stage
  · exact Nat.lt_of_le_of_lt (leftToTask_startJoin m) (by decide)
  · cases stage with
    | queued => exact absurd rfl hp
    | closing =>
      have hset : (m.setTask task (.close .closing)).tasks.lookup task =
          some (.close .closing) := Table.lookup_insert_self
      rw [continueClose, hset]
      decide

/-- What the reader does leaves the task as much to do, -/
theorem leftToDo_of_reader (ha : e.actor? = some .reader)
    (hlt : leftToReader (l.step e).reader < leftToReader l.reader) :
    (l.step e).leftToDo task < l.leftToDo task := by
  have hplace : SamePlace l (l.step e) (.caller task) := step_others (by simp [ha])
  rw [leftToDo, leftToDo, hplace.1]
  exact Nat.add_lt_add_left hlt _

/-- and the other way round. -/
theorem leftToDo_of_task (ha : e.actor? = some (.caller task))
    (hlt : leftToTask ((l.step e).tasks.lookup task) < leftToTask (l.tasks.lookup task)) :
    (l.step e).leftToDo task < l.leftToDo task := by
  have hplace : (l.step e).reader = l.reader :=
    (step_others (by simp [ha]) : SamePlace l (l.step e) .reader)
  rw [leftToDo, leftToDo, hplace]
  exact Nat.add_lt_add_right hlt _

theorem onward_resume (a : Actor) : Onward [.resumeOf a .written false] := fun _ he =>
  .inl ⟨a, List.mem_singleton.1 he⟩

namespace ClosedBy

variable (h : l.ClosedBy task)
include h

/-- In the line there are the reader and the task alone. -/
theorem first_in_line (hin : a ∈ l.line) :
    l.isTurn .reader = true ∨ l.isTurn (.caller task) = true := by
  obtain ⟨b, rest, hline⟩ := List.exists_cons_of_ne_nil (List.ne_nil_of_mem hin)
  have hturn : l.isTurn b = true := by simp [isTurn, hline]
  have hb := (h.tidy.queued.mem b).1 (by simp [hline])
  cases b with
  | reader => exact .inl hturn
  | probe =>
    simp only [hand, h.alone.probe] at hb
    cases hb
  | caller n =>
    by_cases hn : n = task
    · exact .inr (hn ▸ hturn)
    · rw [hand_of_lookup_none (h.alone.others n hn)] at hb
      cases hb

/-- The task that is first in the line gives the write half back. -/
theorem task_moves (hturn : l.isTurn (.caller task) = true) :
    (l.step (.resume task .written false)).leftToDo task < l.leftToDo task := by
  have hin : (l.hand (.caller task)).inLine = true :=
    (h.tidy.queued.mem _).1 (List.mem_of_mem_head? (by simpa [isTurn] using hturn))
  cases h.closes with
  | queued ht =>
    refine leftToDo_of_task rfl ?_
    simp only [step, ht, resumeTask]
    exact leftToTask_continue (release_first hturn)
  | leaving ht | joining ht =>
    rw [hand_of_lookup ht] at hin
    cases hin
  | done ht =>
    rw [hand_of_lookup_none ht] at hin
    cases hin

/-- **A close gets on.** While the task is not over, somebody can go on, and then less is left to
do. -/
theorem goes_on (hr : l.results.lookup task = none) :
    ∃ e, Onward [e] ∧ (l.step e).leftToDo task < l.leftToDo task := by
  cases hreader : l.reader with
  | running =>
    refine ⟨.stopReading, fun e he => .inr (List.mem_singleton.1 he),
      leftToDo_of_reader rfl ?_⟩
    have hstopped : l.stopped = true := by
      have hopen := h.ended
      rw [h.inv.stopped]
      simpa [isOpen] using hopen
    simp only [step, hreader, hstopped, Bool.and_self, decide_true, ↓reduceIte]
    refine Nat.lt_succ_of_le (leftToReader_le _ ?_)
    rw [stopReader]
    generalize (l.joinLine .reader).release .reader .queued = p
    obtain ⟨m, r⟩ := p
    cases r <;> simp [continueReader]
  | releasing stage =>
    cases stage with
    | closing =>
      refine ⟨_, onward_resume .reader, leftToDo_of_reader rfl ?_⟩
      simp only [Event.resumeOf, step, hreader]
      decide
    | queued =>
      have hin : Actor.reader ∈ l.line := (h.tidy.queued.mem _).2 (by
        simp only [hand, hreader]
        rfl)
      rcases h.first_in_line hin with hturn | hturn
      · refine ⟨_, onward_resume .reader, leftToDo_of_reader rfl ?_⟩
        simp only [Event.resumeOf, step, hreader]
        exact leftToReader_continue (release_first hturn)
      · exact ⟨_, onward_resume (.caller task), h.task_moves hturn⟩
  | ended =>
    refine ⟨_, onward_resume (.caller task), ?_⟩
    cases h.closes with
    | queued ht =>
      have hin : Actor.caller task ∈ l.line := (h.tidy.queued.mem _).2 (by
        rw [hand_of_lookup ht]
        rfl)
      rcases h.first_in_line hin with hturn | hturn
      · have hhand := (h.tidy.queued.mem .reader).1
          (List.mem_of_mem_head? (by simpa [isTurn] using hturn))
        simp only [hand, hreader] at hhand
        cases hhand
      · exact h.task_moves hturn
    | leaving ht =>
      refine leftToDo_of_task rfl ?_
      simp only [Event.resumeOf, step, ht, resumeTask]
      exact Nat.lt_succ_of_le (leftToTask_startJoin l)
    | joining ht =>
      refine leftToDo_of_task rfl ?_
      simp only [Event.resumeOf, step, ht, resumeTask, (isQuiet_of_alone h.alone).2 hreader,
        ↓reduceIte]
      rw [finish, Table.lookup_erase_self]
      decide
    | done _ hend =>
      rw [hr] at hend
      cases hend

end ClosedBy

end ServerLink.Link
