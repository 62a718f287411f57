import ServerLink.Error
import ServerLink.Subscription.Mailbox
import ServerLink.Table

/-!
# Delivery to subscribers

`Fanout` knows which subscriptions are open on which collection and puts each value into the
mailboxes of its collection. A subscription is closed by taking its entry out, by whichever route
comes first; its mailbox stays until the subscriber discards it.
-/

namespace ServerLink

/-- A subscription's collection and its key, which no other subscription has. -/
structure Subscription where
  collection : String
  key : Nat
deriving DecidableEq, Repr

structure Fanout where
  /-- The keys of the open subscriptions of each collection that has any, in order of
  registration. -/
  channels : Table String (List Nat) := []
  lastKey : Nat := 0
  /-- No more subscriptions are admitted. -/
  closed : Bool := false
  mailboxes : Table Nat Mailbox := []
deriving DecidableEq

namespace Fanout

/-- The open subscriptions of a collection. -/
def subscribers (f : Fanout) (collection : String) : List Nat :=
  (f.channels.lookup collection).getD []

def count (f : Fanout) (collection : String) : Nat := (f.subscribers collection).length

/-- How many subscriptions are open on all collections together. -/
def total (f : Fanout) : Nat := (f.channels.map (·.2)).flatten.length

/-- Changes a mailbox, if there is one with this key. -/
def updateMailbox (f : Fanout) (key : Nat) (change : Mailbox → Mailbox) : Fanout :=
  { f with mailboxes := f.mailboxes.map fun e => if e.1 = key then (e.1, change e.2) else e }

/-- Changes the mailboxes with these keys. -/
def updateMailboxes (f : Fanout) (keys : List Nat) (change : Mailbox → Mailbox) : Fanout :=
  { f with mailboxes := f.mailboxes.map fun e => if e.1 ∈ keys then (e.1, change e.2) else e }

/-- The channels with other keys for one collection; a collection without keys has no entry. -/
def setSubscribers (channels : Table String (List Nat)) (collection : String) (keys : List Nat) :
    Table String (List Nat) :=
  if keys.isEmpty then Table.erase channels collection
  else if (channels.lookup collection).isSome then
    channels.map fun e => if e.1 = collection then (e.1, keys) else e
  else channels ++ [(collection, keys)]

/-- Opens a subscription with a mailbox of its own. -/
def register (f : Fanout) (collection : String) (capacity : Nat) :
    Except LinkError (Subscription × Fanout) :=
  if f.closed then .error (.closed "subscriptions are closed")
  else
    let key := f.lastKey + 1
    .ok (⟨collection, key⟩,
      { f with
        lastKey := key
        channels := setSubscribers f.channels collection (f.subscribers collection ++ [key])
        mailboxes := f.mailboxes ++ [(key, .ofCapacity capacity)] })

/-- Puts a value into the mailbox of every subscriber of a collection and wakes them all, in one
step. -/
def deliver (f : Fanout) (collection : String) (v : Json) : Fanout :=
  f.updateMailboxes (f.subscribers collection) (·.push v)

/-- Takes a subscription's entry out and closes its mailbox. Nothing happens if there is no such
entry; says whether there was. -/
def remove (f : Fanout) (s : Subscription) : Fanout × Bool :=
  let keys := f.subscribers s.collection
  if s.key ∈ keys then
    let rest := setSubscribers f.channels s.collection (keys.filter (· ≠ s.key))
    (({ f with channels := rest }).updateMailbox s.key Mailbox.close, true)
  else (f, false)

/-- Closes every subscription and admits no more; says how many it closed. The end of the fanout
itself comes to the same. -/
def closeAll (f : Fanout) : Fanout × Nat :=
  let keys := (f.channels.map (·.2)).flatten
  (({ f with closed := true, channels := [] }).updateMailboxes keys Mailbox.close, f.total)

/-- The subscriber closes its subscription. -/
def close (f : Fanout) (s : Subscription) : Fanout := (f.remove s).1

/-- The subscriber closes its subscription and gives its mailbox up. -/
def discard (f : Fanout) (s : Subscription) : Fanout :=
  let f := f.close s
  { f with mailboxes := Table.erase f.mailboxes s.key }

def mailbox? (f : Fanout) (s : Subscription) : Option Mailbox := f.mailboxes.lookup s.key

/-- The subscriber does something with its mailbox that finds a value or not. -/
def read (f : Fanout) (s : Subscription) (how : Mailbox → Mailbox × Mailbox.Found) :
    Fanout × Mailbox.Found :=
  match f.mailbox? s with
  | some m => (f.updateMailbox s.key fun _ => (how m).1, (how m).2)
  | none => (f, .ended)

/-- The subscriber reads all values that are there. -/
def drain (f : Fanout) (s : Subscription) : Fanout × List Json :=
  (f.updateMailbox s.key fun m => { m with values := [] },
    ((f.mailbox? s).map (·.values)).getD [])

/-- What a subscriber does with its subscription. -/
inductive Act where
  | close
  /-- Closes it and gives its mailbox up. -/
  | discard
  /-- Reads without waiting. -/
  | take
  /-- The steps of a read that waits. -/
  | look
  | lieDown
  | poll
  | stopWaiting
deriving DecidableEq, Repr

def act (f : Fanout) (s : Subscription) : Act → Fanout × Mailbox.Found
  | .close => (f.close s, .nothing)
  | .discard => (f.discard s, .nothing)
  | .take => f.read s Mailbox.take
  | .look => f.read s Mailbox.look
  | .lieDown => (f.updateMailbox s.key Mailbox.lieDown, .nothing)
  | .poll => f.read s Mailbox.poll
  | .stopWaiting => (f.updateMailbox s.key Mailbox.stopWaiting, .nothing)

/-- What can happen to subscriptions. -/
inductive Event where
  | register (collection : String) (capacity : Nat)
  | deliver (collection : String) (value : Json)
  | remove (subscription : Subscription)
  | closeAll
  | act (subscription : Subscription) (act : Act)
deriving DecidableEq

/-- What an event shows to whoever caused it. -/
inductive Shown where
  | registered (outcome : Except LinkError Subscription)
  | reached (count : Nat)
  | removed (was : Bool)
  | closedAll (count : Nat)
  | found (found : Mailbox.Found)
deriving DecidableEq

def step (f : Fanout) : Event → Fanout × Shown
  | .register collection capacity =>
    match f.register collection capacity with
    | .ok (s, f) => (f, .registered (.ok s))
    | .error e => (f, .registered (.error e))
  | .deliver collection v => (f.deliver collection v, .reached (f.count collection))
  | .remove s => ((f.remove s).1, .removed (f.remove s).2)
  | .closeAll => (f.closeAll.1, .closedAll f.closeAll.2)
  | .act s a => ((f.act s a).1, .found (f.act s a).2)

def run (f : Fanout) (events : List Event) : Fanout := events.foldl (fun f e => (f.step e).1) f

end Fanout

/-- The server's answer to a subscribe call admits the subscription: it is true, or a name for the
subscription that is not empty. -/
def acknowledges : Json → Bool
  | .bool b => b
  | .string id => !id.isEmpty
  | _ => false

end ServerLink
