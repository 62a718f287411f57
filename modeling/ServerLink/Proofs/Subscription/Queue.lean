import ServerLink.Proofs.Subscription.Mailbox

/-!
# A queue by itself

`Queue` is a bounded queue that drops its oldest values, with neither wakeups nor siblings. A mailbox
shows what such a queue shows (`Mailbox.Shows`), whichever way its subscriber reads, as long as the
subscriber goes to sleep only after a look that found nothing.
-/

namespace ServerLink

/-- The latest values that were fed and not read, and how many others there was no room for. -/
structure Queue where
  capacity : Nat
  values : List Json := []
  dropped : Nat := 0
  closed : Bool := false
deriving DecidableEq

namespace Queue

def feed (q : Queue) (v : Json) : Queue :=
  let all := q.values ++ [v]
  let surplus := all.length - q.capacity
  { q with values := all.drop surplus, dropped := q.dropped + surplus }

def close (q : Queue) : Queue := { q with closed := true }

def read (q : Queue) : Queue × Mailbox.Found :=
  match q.values with
  | v :: vs => ({ q with values := vs }, .value v)
  | [] => (q, if q.closed then .ended else .nothing)

/-- What can happen to a queue. -/
inductive Step where
  | feed (value : Json)
  | close
  | read
deriving DecidableEq

/-- The queue after a step, and what a read finds. -/
def step (q : Queue) : Step → Queue × List Mailbox.Found
  | .feed v => (q.feed v, [])
  | .close => (q.close, [])
  | .read => (q.read.1, [q.read.2])

/-- The queue after some steps, and what the reads among them find, in order. -/
def run (q : Queue) : List Step → Queue × List Mailbox.Found
  | [] => (q, [])
  | t :: ts => (((q.step t).1.run ts).1, (q.step t).2 ++ ((q.step t).1.run ts).2)

theorem run_append (q : Queue) (ts us : List Step) :
    q.run (ts ++ us) = (((q.run ts).1.run us).1, (q.run ts).2 ++ ((q.run ts).1.run us).2) := by
  induction ts generalizing q with
  | nil => simp [run]
  | cons t ts ih => simp [run, ih]

theorem read_nothing {q : Queue} (h : q.read.2 = .nothing) :
    q.read.1 = q ∧ q.values = [] ∧ q.closed = false := by
  unfold read at h ⊢
  split at h
  · cases h
  · rename_i hv
    cases hc : q.closed with
    | true => simp [hc] at h
    | false => simp [hv]

@[simp] theorem read_closed (q : Queue) : q.read.1.closed = q.closed := by
  unfold read; split <;> rfl

end Queue

namespace Mailbox

/-- A mailbox shows what a queue shows, and whoever sleeps at it has missed nothing. -/
structure Shows (m : Mailbox) (q : Queue) : Prop where
  values : m.values = q.values
  capacity : m.capacity = q.capacity
  dropped : m.dropped = q.dropped
  closed : m.closed = q.closed
  room : m.values.length ≤ m.capacity
  positive : 0 < m.capacity
  asleep : m.reader = .asleep → m.values = [] ∧ m.closed = false
  leaving : m.reader = .leaving → m.permit = true ∨ m.values = [] ∧ m.closed = false

variable {m : Mailbox} {q : Queue}

/-- After a wakeup nobody sleeps, and whoever is about to go to sleep finds the wakeup kept. -/
theorem wake_reader (m : Mailbox) :
    m.wake.reader ≠ .asleep ∧ (m.wake.reader = .leaving → m.wake.permit = true) := by
  unfold wake
  split
  · exact ⟨by simp, fun h => by cases h⟩
  · rename_i h
    exact ⟨h, fun _ => rfl⟩

@[simp] theorem wake_capacity (m : Mailbox) : m.wake.capacity = m.capacity := by
  unfold wake; split <;> rfl

@[simp] theorem wake_dropped (m : Mailbox) : m.wake.dropped = m.dropped := by
  unfold wake; split <;> rfl

theorem ofCapacity_shows (capacity : Nat) :
    (ofCapacity capacity).Shows { capacity := max capacity 1 } where
  values := rfl
  capacity := rfl
  dropped := rfl
  closed := rfl
  room := Nat.zero_le _
  positive := Nat.lt_of_lt_of_le Nat.zero_lt_one (Nat.le_max_right ..)
  asleep := fun h => by cases h
  leaving := fun h => by cases h

namespace Shows

variable (h : m.Shows q)
include h

/-- The reader moves, with or without a kept wakeup. -/
theorem move {reader : Reader} {permit : Bool}
    (ha : reader = .asleep → m.values = [] ∧ m.closed = false)
    (hl : reader = .leaving → permit = true ∨ m.values = [] ∧ m.closed = false) :
    Shows { m with reader, permit } q :=
  ⟨h.values, h.capacity, h.dropped, h.closed, h.room, h.positive, ha, hl⟩

/-- A change with a wakeup. -/
theorem wakeOf {m' : Mailbox} {q' : Queue} (hv : m'.values = q'.values)
    (hc : m'.capacity = q'.capacity) (hd : m'.dropped = q'.dropped) (hcl : m'.closed = q'.closed)
    (hroom : m'.values.length ≤ m'.capacity) (hcap : m'.capacity = m.capacity) :
    m'.wake.Shows q' where
  values := m'.wake_values.trans hv
  capacity := m'.wake_capacity.trans hc
  dropped := m'.wake_dropped.trans hd
  closed := m'.wake_closed.trans hcl
  room := by rw [wake_values, wake_capacity]; exact hroom
  positive := by rw [wake_capacity, hcap]; exact h.positive
  asleep := fun hr => absurd hr m'.wake_reader.1
  leaving := fun hr => .inl (m'.wake_reader.2 hr)

theorem push (v : Json) : (m.push v).Shows (q.feed v) := by
  have hroom := h.room
  have hpos := h.positive
  unfold Mailbox.push
  split
  · rename_i hfull
    have hsurplus : (q.values ++ [v]).length - q.capacity = 1 := by
      rw [← h.values, ← h.capacity, List.length_append, List.length_singleton]
      omega
    refine h.wakeOf ?_ h.capacity ?_ h.closed ?_ rfl
    · show m.values.drop 1 ++ [v] = (q.values ++ [v]).drop _
      rw [hsurplus, ← h.values, List.drop_append_of_le_length (by omega)]
    · show m.dropped + 1 = q.dropped + _
      rw [hsurplus, h.dropped]
    · show (m.values.drop 1 ++ [v]).length ≤ m.capacity
      rw [List.length_append, List.length_drop, List.length_singleton]
      omega
  · rename_i hfull
    have hsurplus : (q.values ++ [v]).length - q.capacity = 0 := by
      rw [← h.values, ← h.capacity, List.length_append, List.length_singleton]
      omega
    refine h.wakeOf ?_ h.capacity ?_ h.closed ?_ rfl
    · show m.values ++ [v] = (q.values ++ [v]).drop _
      rw [hsurplus, ← h.values, List.drop_zero]
    · show m.dropped = q.dropped + _
      rw [hsurplus, h.dropped, Nat.add_zero]
    · show (m.values ++ [v]).length ≤ m.capacity
      rw [List.length_append, List.length_singleton]
      omega

theorem close : m.close.Shows q.close :=
  h.wakeOf h.values h.capacity h.dropped rfl h.room rfl

theorem take : m.take.1.Shows q.read.1 ∧ m.take.2 = q.read.2 := by
  cases hv : m.values with
  | nil =>
    have hq : q.read = (q, if q.closed then .ended else .nothing) := by
      rw [Queue.read, ← h.values, hv]
    simp only [Mailbox.take, hv, hq]
    exact ⟨h, by rw [h.closed]⟩
  | cons v vs =>
    have hq : q.read = ({ q with values := vs }, .value v) := by rw [Queue.read, ← h.values, hv]
    simp only [Mailbox.take, hv, hq]
    refine ⟨⟨rfl, h.capacity, h.dropped, h.closed, ?_, h.positive, fun hr => ?_, fun hr => ?_⟩,
      trivial⟩
    · have := h.room
      rw [hv, List.length_cons] at this
      exact Nat.le_of_succ_le this
    · simpa [hv] using (h.asleep hr).1
    · rcases h.leaving hr with hp | hn
      · exact .inl hp
      · simpa [hv] using hn.1

theorem look : m.look.1.Shows q.read.1 ∧ m.look.2 = q.read.2 := by
  obtain ⟨hs, hf⟩ := h.take
  refine ⟨?_, hf⟩
  by_cases hn : m.take.2 = .nothing
  · obtain ⟨hq, hv, hc⟩ := Queue.read_nothing (hf.symm.trans hn)
    have hl : m.look.1 = { m.take.1 with reader := .leaving } := by simp [Mailbox.look, hn]
    rw [hl]
    exact hs.move nofun fun _ => .inr ⟨hs.values.trans (by rw [hq, hv]),
      hs.closed.trans (by rw [hq, hc])⟩
  · have hl : m.look.1 = { m.take.1 with reader := .awake } := by simp [Mailbox.look, hn]
    rw [hl]
    exact hs.move nofun nofun

theorem lieDown (hr : m.reader = .leaving) : m.lieDown.Shows q := by
  unfold Mailbox.lieDown
  split
  · exact h.move nofun nofun
  · rename_i hp
    exact h.move (fun _ => (h.leaving hr).resolve_left hp) nofun

theorem stopWaiting : m.stopWaiting.Shows q := by
  unfold Mailbox.stopWaiting
  split <;> exact h.move nofun nofun

/-- A read that waits finds what a read at once finds. -/
theorem poll : m.poll.1.Shows q.read.1 ∧ m.poll.2 = q.read.2 := by
  have hleaving : ∀ n : Mailbox, n.look.2 = .nothing → n.look.1.reader = .leaving :=
    fun n hn => if_pos hn
  unfold Mailbox.poll
  split
  · rename_i hr
    obtain ⟨hv, hc⟩ := h.asleep hr
    have hq : q.read = (q, .nothing) := by
      rw [Queue.read, ← h.values, hv, ← h.closed, hc]
      rfl
    rw [hq]
    exact ⟨h, rfl⟩
  · obtain ⟨hs, hf⟩ := h.look
    split
    · rename_i m₁ hl
      rw [hl] at hs hf
      have hq := (Queue.read_nothing hf.symm).1
      have hdown : m₁.lieDown.Shows q := by
        rw [← hq]
        exact hs.lieDown (by have := hleaving m (by rw [hl]); rwa [hl] at this)
      rw [← hf, hq]
      dsimp only
      split
      · exact ⟨hdown, rfl⟩
      · -- a wakeup was kept, so the subscriber looks again
        obtain ⟨hs', hf'⟩ := hdown.look
        rw [hq] at hs'
        rw [← hf] at hf'
        split
        · rename_i m₂ hl'
          rw [hl'] at hs'
          exact ⟨hs'.lieDown (by have := hleaving m₁.lieDown (by rw [hl']); rwa [hl'] at this), rfl⟩
        · exact ⟨hs', hf'⟩
    · exact ⟨hs, hf⟩

end Shows

end Mailbox

end ServerLink
