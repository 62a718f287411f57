import ServerLink.Json.Basic

/-!
# A subscriber's mailbox

A mailbox holds the most recent values a subscriber has not read, up to its capacity; a value that
comes when it is full pushes out the oldest. A subscriber reads at once or waits: it looks, and
finding nothing goes to sleep until a value or the close wakes it. A wakeup that finds nobody
asleep is kept for the next one who would go to sleep.
-/

namespace ServerLink

/-- Where a waiting subscriber stands. -/
inductive Reader where
  /-- Not waiting, or about to look again. -/
  | awake
  /-- Has found the mailbox empty and open, and has not yet gone to sleep. -/
  | leaving
  | asleep
  /-- Called out of sleep, and has not yet looked. -/
  | called
deriving DecidableEq, Repr

structure Mailbox where
  values : List Json := []
  capacity : Nat
  /-- How many values were pushed out unread. -/
  dropped : Nat := 0
  closed : Bool := false
  /-- A wakeup that found nobody asleep. -/
  permit : Bool := false
  reader : Reader := .awake
deriving DecidableEq

/-- What a look into a mailbox finds. -/
inductive Mailbox.Found where
  | value (v : Json)
  /-- Nothing, and nothing will come. -/
  | ended
  /-- Nothing yet. -/
  | nothing
deriving DecidableEq

namespace Mailbox

/-- An empty mailbox, with room for one value at least. -/
def ofCapacity (capacity : Nat) : Mailbox := { capacity := max capacity 1 }

/-- Wakes the subscriber if it sleeps, or keeps the wakeup. -/
def wake (m : Mailbox) : Mailbox :=
  if m.reader = .asleep then { m with reader := .called } else { m with permit := true }

/-- Puts a value in. To change the mailbox and to wake the subscriber is one step here. -/
def push (m : Mailbox) (v : Json) : Mailbox :=
  if m.values.length = m.capacity then
    wake { m with values := m.values.drop 1 ++ [v], dropped := m.dropped + 1 }
  else wake { m with values := m.values ++ [v] }

/-- Closes the mailbox; its values can still be read. This and the wakeup are one step, too. -/
def close (m : Mailbox) : Mailbox := wake { m with closed := true }

/-- Takes the oldest value out. -/
def take (m : Mailbox) : Mailbox × Found :=
  match m.values with
  | v :: vs => ({ m with values := vs }, .value v)
  | [] => (m, if m.closed then .ended else .nothing)

/-- A waiting subscriber that is awake looks, and prepares to sleep if there is nothing. -/
def look (m : Mailbox) : Mailbox × Found :=
  let (m, found) := m.take
  ({ m with reader := if found = .nothing then .leaving else .awake }, found)

/-- A subscriber that found nothing goes to sleep, unless a wakeup was kept for it. -/
def lieDown (m : Mailbox) : Mailbox :=
  if m.permit then { m with permit := false, reader := .awake } else { m with reader := .asleep }

/-- Lets a waiting subscriber go on as far as it can: to a value, to the end, or to sleep. -/
def poll (m : Mailbox) : Mailbox × Found :=
  if m.reader = .asleep then (m, .nothing)
  else match m.look with
    | (m, .nothing) =>
      let m := m.lieDown
      if m.reader = .asleep then (m, .nothing)
      else match m.look with
        | (m, .nothing) => (m.lieDown, .nothing)
        | other => other
    | other => other

/-- The subscriber stops waiting. A call it has not answered is kept for the next wait. -/
def stopWaiting (m : Mailbox) : Mailbox :=
  if m.reader = .called then { m with reader := .awake, permit := true }
  else { m with reader := .awake }

end Mailbox

end ServerLink
