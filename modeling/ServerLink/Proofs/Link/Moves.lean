import Mathlib.Logic.Relation
import ServerLink.Proofs.Link.Operations

/-!
# Moves of a connection

Whatever the reader, the probe and the tasks do is made of a few moves, each of which changes one
thing (`Link.Move`). So what every move keeps, every event keeps: calls and subscriptions end
together, and nobody gives the write half back before the end (`Link.Inv`).
-/

namespace ServerLink.Link

/-- One move, by somebody on this side of the connection. A task may report that the connection is
closed while it is open only if it is `lost`. -/
inductive Move (lost : Nat → Prop) (l : Link) : Link → Prop
  | op (o : Op) (h : o.isInbound = false) : Move lost l (l.perform o)
  | line (line : List Actor) : Move lost l { l with line }
  | send (frame : String) : Move lost l { l with sent := l.sent ++ [frame] }
  | giveBack (h : l.stopped = true) : Move lost l { l with writable := false }
  | reader (s : Reader.State) (h : l.stopped = true) : Move lost l { l with reader := s }
  | probe (s : Probe.State) (h : ∀ stage, s = .releasing stage → l.stopped = true) :
      Move lost l { l with probe := s }
  | joinable : Move lost l { l with joinable := false }
  | jobStream (s : JobStream) : Move lost l { l with jobStream := s }
  | fire (token : Nat) : Move lost l { l with fired := l.fired ++ [token] }
  | setTask (task : Nat) (t : Task) (h : ∀ stage, t = .close stage → l.stopped = true) :
      Move lost l (l.setTask task t)
  | dropTask (task : Nat) : Move lost l { l with tasks := Table.erase l.tasks task }
  | finish (task : Nat) (r : Result)
      (h : ∀ reason, r = .error (.closed reason) → l.isOpen = true → lost task) :
      Move lost l (l.finish task r)

/-- Some moves, one after the other. -/
def Moves (lost : Nat → Prop) : Link → Link → Prop := Relation.ReflTransGen (Move lost)

/-- What holds of a connection at any time. -/
structure Inv (l : Link) : Prop where
  calls : l.calls.Inv
  fanout : l.fanout.Inv
  stopped : l.stopped = l.calls.closed.isSome
  shut : l.fanout.closed = l.calls.closed.isSome
  writable : l.writable = false → l.stopped = true
  reader : l.reader ≠ .running → l.stopped = true
  probe : ∀ stage, l.probe = .releasing stage → l.stopped = true
  closing : ∀ task stage, l.tasks.lookup task = some (.close stage) → l.stopped = true
  /-- Before the end of the connection no call is told of it. -/
  unclosed : l.calls.closed = none → ∀ id reason,
    l.slots.lookup id ≠ some (.filled (.error (.closed reason)))

theorem Moves.refl {lost : Nat → Prop} {l : Link} : Moves lost l l := Relation.ReflTransGen.refl

theorem Moves.trans {lost : Nat → Prop} {l m n : Link} (h : Moves lost l m) (h' : Moves lost m n) :
    Moves lost l n := Relation.ReflTransGen.trans h h'

theorem Move.moves {lost : Nat → Prop} {l m : Link} (h : Move lost l m) : Moves lost l m :=
  Relation.ReflTransGen.single h

variable {lost : Nat → Prop} {l m : Link}

/-! ## The end of a connection -/

theorem isOpen_iff : l.isOpen = true ↔ l.calls.closed = none := by simp [isOpen]

theorem closed_perform_of_some {reason : LinkError} (h : l.calls.closed = some reason) (o : Op) :
    (l.perform o).calls.closed = some reason := by
  rw [closed_perform]
  cases o <;> simp [h]

/-- The end is not undone. -/
theorem Move.closed {reason : LinkError} (h : Move lost l m) (hc : l.calls.closed = some reason) :
    m.calls.closed = some reason := by
  cases h with
  | op o _ => exact closed_perform_of_some hc o
  | _ => exact hc

theorem Moves.closed {reason : LinkError} (h : Moves lost l m) (hc : l.calls.closed = some reason) :
    m.calls.closed = some reason := by
  induction h with
  | refl => exact hc
  | tail _ hm ih => exact hm.closed ih

theorem Moves.isOpen (h : Moves lost l m) (hm : m.isOpen = true) : l.isOpen = true := by
  rw [isOpen_iff] at hm ⊢
  cases hc : l.calls.closed with
  | none => rfl
  | some reason => rw [h.closed hc] at hm; cases hm

/-! ## The invariant -/

theorem outcome_unclosed (r : Job.Report) (reason : String) :
    r.outcome ≠ .error (.closed reason) := by
  unfold Job.Report.outcome
  split <;> simp

theorem direct_unclosed (kind : Call.Kind) (r : Response) (reason : String) :
    Calls.direct kind r ≠ .error (.closed reason) := by
  unfold Calls.direct
  split <;> simp

/-- Nothing but the end of all calls tells a call that the connection is closed. -/
theorem endsOf_unclosed (c : Calls) {e : Calls.Event} (he : ∀ why, e ≠ .failAll why) (id : Nat)
    (reason : String) : .filled (.error (.closed reason)) ∉ endsOf id (c.step e).2 := by
  intro hm
  rcases Calls.mem_step (mem_endsOf.1 hm) with ⟨kind, r, -, hd⟩ | ⟨x, ho⟩ | ⟨why, hf, -⟩ | ⟨ha, -⟩
  · exact direct_unclosed kind r reason (Slot.End.filled.inj hd).symm
  · exact outcome_unclosed x reason (Slot.End.filled.inj ho).symm
  · exact he why hf
  · cases ha

namespace Inv

theorem ofSettings (settings : Settings) : (Link.ofSettings settings).Inv where
  calls := .empty
  fanout := .empty
  stopped := rfl
  shut := rfl
  writable := fun h => by cases h
  reader := fun h => absurd rfl h
  probe := fun _ h => by cases h
  closing := fun _ _ h => by cases h
  unclosed := fun _ _ _ h => by cases h

theorem writable_of_open {l : Link} (h : l.Inv) (hc : l.calls.closed = none) :
    l.writable = true := by
  cases hw : l.writable with
  | true => rfl
  | false =>
    have hs := h.writable hw
    rw [h.stopped, hc] at hs
    cases hs

variable (h : l.Inv)
include h

theorem perform (o : Op) : (l.perform o).Inv := by
  have hkept : l.stopped = true → (l.perform o).stopped = true := fun hs => by
    rw [stopped_perform]
    cases o <;> first | rfl | exact hs
  refine ⟨?_, ?_, ?_, ?_, ?_, ?_, ?_, ?_, ?_⟩
  · rw [calls_perform]
    split
    · exact h.calls.step _
    · exact h.calls
  · rw [fanout_perform]
    split
    · split
      · exact h.fanout
      · exact h.fanout.closeAll
    · exact h.fanout.step _
    · exact h.fanout
  · rw [stopped_perform, closed_perform]
    cases o <;> first | rfl | exact h.stopped
  · rw [fanout_perform, closed_perform]
    cases o with
    | teardown reason =>
      have hshut := h.shut
      cases hc : l.calls.closed with
      | none => rfl
      | some why => rw [hc] at hshut; exact hshut
    | subscribe _ _ | deliver _ _ | remove _ | act _ _ =>
      simp only [Op.fanoutEvent?, Fanout.closed_step]
      exact h.shut
    | register _ | answer _ | report _ | cancel _ => exact h.shut
  · rw [perform_frame]
    exact fun hw => hkept (h.writable hw)
  · rw [perform_frame]
    exact fun hr => hkept (h.reader hr)
  · rw [perform_frame]
    exact fun stage hp => hkept (h.probe stage hp)
  · rw [perform_frame]
    exact fun task stage ht => hkept (h.closing task stage ht)
  · intro hc id reason hs
    have hopen : l.calls.closed = none := by
      rw [closed_perform] at hc
      cases o <;> first | exact hc | simp at hc
    rw [slots_perform] at hs
    split at hs
    · cases hs
    · rcases Option.or_eq_some_iff.1 hs with hs | ⟨-, hs⟩
      · have hm := List.mem_of_getLast? hs
        cases o with
        | answer r => exact endsOf_unclosed l.calls (by simp) id reason hm
        | report r => exact endsOf_unclosed l.calls (by simp) id reason hm
        | teardown why => rw [closed_perform] at hc; cases hc
        | _ => cases hm
      · exact h.unclosed hopen id reason hs

theorem move (hm : Move lost l m) : m.Inv := by
  cases hm with
  | op o _ => exact h.perform o
  | giveBack hs =>
    exact ⟨h.calls, h.fanout, h.stopped, h.shut, fun _ => hs, h.reader, h.probe, h.closing,
      h.unclosed⟩
  | reader s hs =>
    exact ⟨h.calls, h.fanout, h.stopped, h.shut, h.writable, fun _ => hs, h.probe, h.closing,
      h.unclosed⟩
  | probe s hs =>
    exact ⟨h.calls, h.fanout, h.stopped, h.shut, h.writable, h.reader, hs, h.closing, h.unclosed⟩
  | setTask task t hs =>
    refine ⟨h.calls, h.fanout, h.stopped, h.shut, h.writable, h.reader, h.probe, ?_, h.unclosed⟩
    intro n stage hn
    by_cases he : n = task
    · subst he
      have hn : (Table.insert l.tasks n t).lookup n = some (.close stage) := hn
      rw [Table.lookup_insert_self] at hn
      exact hs stage (Option.some.inj hn)
    · have hn : (Table.insert l.tasks task t).lookup n = some (.close stage) := hn
      rw [Table.lookup_insert_ne he] at hn
      exact h.closing n stage hn
  | dropTask task | finish task _ _ =>
    refine ⟨h.calls, h.fanout, h.stopped, h.shut, h.writable, h.reader, h.probe, ?_, h.unclosed⟩
    intro n stage hn
    have hn : (Table.erase l.tasks task).lookup n = some (.close stage) := hn
    by_cases he : n = task
    · rw [he, Table.lookup_erase_self] at hn
      cases hn
    · rw [Table.lookup_erase_ne he] at hn
      exact h.closing n stage hn
  | line _ | send _ | joinable | jobStream _ | fire _ =>
    exact ⟨h.calls, h.fanout, h.stopped, h.shut, h.writable, h.reader, h.probe, h.closing,
      h.unclosed⟩

theorem moves (hm : Moves lost l m) : m.Inv := by
  induction hm with
  | refl => exact h
  | tail _ hm ih => exact ih.move hm

end Inv

end ServerLink.Link
