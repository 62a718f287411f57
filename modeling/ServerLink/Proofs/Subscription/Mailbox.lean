import ServerLink.Subscription.Mailbox

/-!
# Facts about mailboxes

Only `close` closes a mailbox, and it keeps the values. A read hands out the oldest value that is
there or none, and leaves the others in their order (`take_values`, `look_values`, `poll_values`).
-/

namespace ServerLink.Mailbox

/-- The value found, as a list. -/
def Found.values : Found → List Json
  | .value v => [v]
  | .ended | .nothing => []

variable {m : Mailbox}

/-! ## Waking and sleeping -/

@[simp] theorem wake_values (m : Mailbox) : m.wake.values = m.values := by
  unfold wake; split <;> rfl

@[simp] theorem wake_closed (m : Mailbox) : m.wake.closed = m.closed := by
  unfold wake; split <;> rfl

@[simp] theorem lieDown_values (m : Mailbox) : m.lieDown.values = m.values := by
  unfold lieDown; split <;> rfl

@[simp] theorem lieDown_closed (m : Mailbox) : m.lieDown.closed = m.closed := by
  unfold lieDown; split <;> rfl

@[simp] theorem stopWaiting_values (m : Mailbox) : m.stopWaiting.values = m.values := by
  unfold stopWaiting; split <;> rfl

@[simp] theorem stopWaiting_closed (m : Mailbox) : m.stopWaiting.closed = m.closed := by
  unfold stopWaiting; split <;> rfl

/-! ## Closing and filling -/

@[simp] theorem ofCapacity_closed (capacity : Nat) : (ofCapacity capacity).closed = false := rfl

@[simp] theorem close_values (m : Mailbox) : m.close.values = m.values := by simp [close]

@[simp] theorem close_closed (m : Mailbox) : m.close.closed = true := by simp [close]

@[simp] theorem push_closed (m : Mailbox) (v : Json) : (m.push v).closed = m.closed := by
  unfold push; split <;> simp

/-! ## Reading -/

@[simp] theorem take_closed (m : Mailbox) : m.take.1.closed = m.closed := by
  unfold take; split <;> rfl

theorem take_values (m : Mailbox) : m.take.2.values ++ m.take.1.values = m.values := by
  unfold take
  split
  · rename_i hv; rw [hv]; rfl
  · rename_i hv; split <;> simp [Found.values]

@[simp] theorem look_closed (m : Mailbox) : m.look.1.closed = m.closed := take_closed m

theorem look_values (m : Mailbox) : m.look.2.values ++ m.look.1.values = m.values := take_values m

theorem look_nothing (h : m.look.2 = .nothing) : m.look.1.values = m.values := by
  have hv := look_values m
  rwa [h, Found.values, List.nil_append] at hv

/-- A poll is one look, or two with a sleep in between that a kept wakeup ends. -/
theorem poll_cases (m : Mailbox) : m.poll = (m, .nothing) ∨
    m.poll = m.look ∨
    (m.look.2 = .nothing ∧ m.poll = (m.look.1.lieDown, .nothing)) ∨
    (m.look.2 = .nothing ∧ (m.poll = m.look.1.lieDown.look ∨
      m.look.1.lieDown.look.2 = .nothing ∧
        m.poll = (m.look.1.lieDown.look.1.lieDown, .nothing))) := by
  unfold poll
  split
  · exact .inl rfl
  · split
    · rename_i n hl
      rw [hl]
      right; right
      by_cases hs : n.lieDown.reader = .asleep
      · exact .inl ⟨rfl, if_pos hs⟩
      · refine .inr ⟨rfl, ?_⟩
        simp only [if_neg hs]
        split
        · rename_i n' hl'
          exact .inr ⟨by rw [hl'], by rw [hl']⟩
        · exact .inl rfl
    · exact .inr (.inl rfl)

@[simp] theorem poll_closed (m : Mailbox) : m.poll.1.closed = m.closed := by
  rcases poll_cases m with h | h | ⟨-, h⟩ | ⟨-, h | ⟨-, h⟩⟩ <;> simp [h]

theorem poll_values (m : Mailbox) : m.poll.2.values ++ m.poll.1.values = m.values := by
  rcases poll_cases m with h | h | ⟨hn, h⟩ | ⟨hn, h | ⟨hn', h⟩⟩ <;> rw [h]
  · rfl
  · exact look_values m
  · simp [Found.values, look_nothing hn]
  · rw [look_values, lieDown_values, look_nothing hn]
  · simp [Found.values, look_nothing hn', look_nothing hn]

end ServerLink.Mailbox
