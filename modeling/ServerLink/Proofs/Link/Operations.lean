import ServerLink.Link.Task
import ServerLink.Proofs.Calls.Displacement
import ServerLink.Proofs.Subscription.Registry

/-!
# Operations on what a connection's actors share

The reader, the probe and the tasks share the calls, the slots and the subscriptions of a
connection. Each change of these is one of a few operations (`Link.Op`), whose effect on each part
is said here once (`calls_perform`, `fanout_perform`, `slots_perform`).
-/

namespace ServerLink.Link

/-- What can happen to what the actors of a connection share. -/
inductive Op where
  | register (kind : Call.Kind)
  | answer (response : Response)
  | report (report : Job.Report)
  | cancel (id : Nat)
  | teardown (reason : LinkError)
  | subscribe (collection : String) (capacity : Nat)
  | deliver (collection : String) (value : Json)
  | remove (subscription : Subscription)
  | act (subscription : Subscription) (act : Fanout.Act)
deriving DecidableEq

namespace Op

/-- What it is for the calls. -/
def callEvent? : Op → Option Calls.Event
  | register kind => some (.register kind)
  | answer r => some (.answer r)
  | report r => some (.report r)
  | cancel id => some (.cancel id)
  | teardown reason => some (.failAll reason)
  | subscribe _ _ | deliver _ _ | remove _ | act _ _ => none

/-- What it is for the subscriptions, apart from the end of the connection. -/
def fanoutEvent? : Op → Option Fanout.Event
  | subscribe collection capacity => some (.register collection capacity)
  | deliver collection v => some (.deliver collection v)
  | remove s => some (.remove s)
  | act s a => some (.act s a)
  | register _ | answer _ | report _ | cancel _ | teardown _ => none

/-- It is the server that brings it. -/
def isInbound : Op → Bool
  | answer _ | report _ | deliver _ _ => true
  | register _ | cancel _ | teardown _ | subscribe _ _ | remove _ | act _ _ => false

/-- What a frame of the server brings. -/
def ofText? (text : String) : Option Op :=
  match Frame.ofText text with
  | .ok (.answer r) => some (answer r)
  | .ok (.job r) => some (report r)
  | .ok (.change c) => some (deliver c.collection c.payload)
  | .ok (.unrecognized _) => none
  | .error _ => none

end Op

def perform (l : Link) : Op → Link
  | .register kind => { l with calls := (l.calls.step (.register kind)).1 }
  | .answer r =>
    ({ l with calls := (l.calls.step (.answer r)).1 }).settle (l.calls.step (.answer r)).2
  | .report r =>
    ({ l with calls := (l.calls.step (.report r)).1 }).settle (l.calls.step (.report r)).2
  | .cancel id => l.forget id
  | .teardown reason => l.teardown reason
  | .subscribe collection capacity =>
    { l with fanout := (l.fanout.step (.register collection capacity)).1 }
  | .deliver collection v => { l with fanout := (l.fanout.step (.deliver collection v)).1 }
  | .remove s => { l with fanout := (l.fanout.step (.remove s)).1 }
  | .act s a => { l with fanout := (l.fanout.step (.act s a)).1 }

def performAll (l : Link) (ops : List Op) : Link := ops.foldl perform l

/-- What a frame brings, the server brings. -/
theorem Op.isInbound_of_text {text : String} {o : Op} (h : Op.ofText? text = some o) :
    o.isInbound = true := by
  unfold Op.ofText? at h
  split at h <;> cases h <;> rfl

variable {l : Link}

/-! ## Operations of the model -/

theorem dispatch_eq (l : Link) (text : String) :
    l.dispatch text = ((Op.ofText? text).map l.perform).getD l := by
  unfold dispatch Op.ofText?
  cases Frame.ofText text with
  | error e => rfl
  | ok frame =>
    cases frame with
    | answer r =>
      show _ = l.perform (.answer r)
      simp only [perform, Calls.step]
      cases l.calls.answer r <;> rfl
    | _ => rfl

theorem register_eq_perform {kind : Call.Kind} {id : Nat} {calls : Calls}
    (h : l.calls.register kind = .ok (id, calls)) :
    { l with calls } = l.perform (.register kind) := by
  simp only [perform, Calls.step, h]

theorem subscribe_eq_perform {collection : String} {capacity : Nat} {s : Subscription}
    {fanout : Fanout} (h : l.fanout.register collection capacity = .ok (s, fanout)) :
    { l with fanout } = l.perform (.subscribe collection capacity) := by
  simp only [perform, Fanout.step, h]

/-! ## What an operation does to each part -/

theorem calls_teardown (l : Link) (reason : LinkError) :
    (l.teardown reason).calls = (l.calls.step (.failAll reason)).1 := by
  unfold teardown
  simp only [Calls.step]
  cases l.calls.failAll reason <;> rfl

theorem calls_perform (l : Link) (o : Op) : (l.perform o).calls =
    match o.callEvent? with
    | some e => (l.calls.step e).1
    | none => l.calls := by
  cases o with
  | teardown reason => exact calls_teardown l reason
  | _ => rfl

theorem closed_perform (l : Link) (o : Op) : (l.perform o).calls.closed =
    match o with
    | .teardown reason => some (l.calls.closed.getD reason)
    | _ => l.calls.closed := by
  rw [calls_perform]
  cases o <;> simp only [Op.callEvent?, Calls.closed_step]

theorem failAll_eq (c : Calls) (reason : LinkError) :
    c.failAll reason = if c.closed.isSome then none else some (c.step (.failAll reason)) := by
  simp only [Calls.step]
  unfold Calls.failAll
  cases c.closed <;> rfl

theorem fanout_perform (l : Link) (o : Op) : (l.perform o).fanout =
    match o, o.fanoutEvent? with
    | .teardown _, _ => if l.calls.closed.isSome then l.fanout else l.fanout.closeAll.1
    | _, some e => (l.fanout.step e).1
    | _, none => l.fanout := by
  cases o with
  | teardown reason =>
    simp only [perform, teardown, failAll_eq]
    cases l.calls.closed <;> rfl
  | _ => rfl

theorem closed_teardown (l : Link) (reason : LinkError) :
    (l.teardown reason).calls.closed = some (l.calls.closed.getD reason) :=
  closed_perform l (.teardown reason)

theorem fanout_teardown (l : Link) (reason : LinkError) : (l.teardown reason).fanout =
    if l.calls.closed.isSome then l.fanout else l.fanout.closeAll.1 :=
  fanout_perform l (.teardown reason)

/-- No frame ends the connection. -/
theorem closed_of_text {text : String} {o : Op} (h : Op.ofText? text = some o) :
    (l.perform o).calls.closed = l.calls.closed := by
  rw [closed_perform]
  cases o with
  | teardown _ => cases Op.isInbound_of_text h
  | _ => rfl

theorem stopped_perform (l : Link) (o : Op) : (l.perform o).stopped =
    match o with
    | .teardown _ => true
    | _ => l.stopped := by
  cases o with
  | teardown reason =>
    simp only [perform, teardown, failAll_eq]
    cases l.calls.closed <;> rfl
  | _ => rfl

/-- An operation changes nothing else. -/
theorem perform_frame (l : Link) (o : Op) : l.perform o = { l with
    calls := (l.perform o).calls, fanout := (l.perform o).fanout, slots := (l.perform o).slots,
    stopped := (l.perform o).stopped } := by
  cases o with
  | teardown reason =>
    simp only [perform, teardown, failAll_eq]
    cases l.calls.closed <;> rfl
  | _ => rfl

theorem line_perform (l : Link) (o : Op) : (l.perform o).line = l.line := by rw [perform_frame]

theorem jobStream_perform (l : Link) (o : Op) : (l.perform o).jobStream = l.jobStream := by
  rw [perform_frame]

/-- After some settlements a slot shows the last of its call's ends, if there is one. -/
theorem lookup_settle (l : Link) (ends : List Settlement) (id : Nat) :
    (l.settle ends).slots.lookup id = ((endsOf id ends).getLast?).or (l.slots.lookup id) := by
  show (ends.foldl (fun slots s => Table.insert slots s.call s.how) l.slots).lookup id = _
  generalize l.slots = slots
  induction ends generalizing slots with
  | nil => rfl
  | cons s ends ih =>
    rw [List.foldl_cons, ih, ← List.singleton_append, endsOf_append, List.getLast?_append,
      Option.or_assoc]
    congr 1
    by_cases hs : s.call = id
    · subst hs
      rw [Table.lookup_insert_self]
      simp [endsOf]
    · rw [Table.lookup_insert_ne (Ne.symm hs)]
      simp [endsOf, hs]

/-- The ends that an operation keeps for the calls' tasks. A cancel keeps none. -/
def ends (l : Link) : Op → List Settlement
  | .answer r => (l.calls.step (.answer r)).2
  | .report r => (l.calls.step (.report r)).2
  | .teardown reason => (l.calls.step (.failAll reason)).2
  | .register _ | .cancel _ | .subscribe _ _ | .deliver _ _ | .remove _ | .act _ _ => []

theorem slots_perform (l : Link) (o : Op) (id : Nat) : (l.perform o).slots.lookup id =
    if o = .cancel id then none
    else ((endsOf id (l.ends o)).getLast?).or (l.slots.lookup id) := by
  cases o with
  | answer r => exact (lookup_settle _ _ id).trans (by simp [ends])
  | report r => exact (lookup_settle _ _ id).trans (by simp [ends])
  | teardown reason =>
    simp only [perform, teardown, failAll_eq, ends, reduceCtorEq, ↓reduceIte]
    cases hc : l.calls.closed with
    | none => exact lookup_settle _ _ id
    | some why => simp [Calls.step_failAll_closed hc]
  | cancel call =>
    show (Table.erase l.slots call).lookup id = _
    by_cases hc : call = id
    · subst hc
      rw [Table.lookup_erase_self, if_pos rfl]
    · rw [Table.lookup_erase_ne (Ne.symm hc), if_neg (by simpa using hc)]
      rfl
  | _ => simp [perform, ends]

theorem slots_answer (l : Link) (r : Response) (id : Nat) :
    (l.perform (.answer r)).slots.lookup id =
      ((endsOf id (l.calls.step (.answer r)).2).getLast?).or (l.slots.lookup id) := by
  rw [slots_perform, if_neg (by simp)]
  rfl

end ServerLink.Link
