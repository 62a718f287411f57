import ServerLink.Job.Watch

/-!
# Outstanding calls

Each call has an id of its own, under which the server answers it. A plain call ends with its
answer; a call that starts a job goes on to wait for the job that its answer names. `failAll`
ends all calls with one reason, after which no new call is admitted.
-/

namespace ServerLink

/-- What ends a call. -/
inductive Call.Kind where
  /-- Its answer. -/
  | plain
  /-- The last report of the job that its answer names. -/
  | job
deriving DecidableEq, Repr

structure Calls where
  nextId : Nat := 1
  /-- The calls without an answer yet. -/
  pending : Table Nat Call.Kind := []
  jobs : Job.Watch := {}
  /-- Why no more calls are admitted. -/
  closed : Option LinkError := none
deriving DecidableEq

namespace Calls

/-- Admits a call under an id of its own. -/
def register (c : Calls) (kind : Call.Kind) : Except LinkError (Nat × Calls) :=
  match c.closed with
  | some reason => .error reason
  | none =>
    .ok (c.nextId,
      { c with nextId := c.nextId + 1, pending := Table.insert c.pending c.nextId kind })

/-- Goes on with a call that is no longer pending, now that it is answered. -/
def settle (c : Calls) (id : Nat) (kind : Call.Kind) (r : Response) : Calls × List Settlement :=
  match r.outcome, kind with
  | .error e, _ => (c, [.filled id (.error (.rpc e))])
  | .ok v, .plain => (c, [.filled id (.ok v)])
  | .ok v, .job =>
    match Job.id? v with
    | some job =>
      let (jobs, settled) := c.jobs.attach job id
      ({ c with jobs }, settled)
    | none => (c, [.filled id (.error (.protocol ("expected a job id, got " ++ v.render)))])

/-- Takes an answer; `none` if no pending call has its id. -/
def answer (c : Calls) (r : Response) : Option (Calls × List Settlement) :=
  (c.pending.lookup r.id).map fun kind =>
    settle { c with pending := Table.erase c.pending r.id } r.id kind r

/-- Takes a report about a job. -/
def report (c : Calls) (r : Job.Report) : Calls × List Settlement :=
  let (jobs, settled) := c.jobs.report r
  ({ c with jobs }, settled)

/-- Gives a call up, whatever it waits for. -/
def cancel (c : Calls) (id : Nat) : Calls × List Settlement :=
  let (jobs, settled) := c.jobs.forget id
  ({ c with pending := Table.erase c.pending id, jobs },
    ((c.pending.lookup id).map fun _ => Settlement.abandoned id).toList ++ settled)

/-- Ends every call with one reason. Only the first time has an effect; `none` any later. -/
def failAll (c : Calls) (reason : LinkError) : Option (Calls × List Settlement) :=
  match c.closed with
  | some _ => none
  | none =>
    let (jobs, settled) := c.jobs.failAll reason
    some ({ c with pending := [], jobs, closed := some reason },
      c.pending.map (fun e => .filled e.1 (.error reason)) ++ settled)

/-- What can happen to outstanding calls. -/
inductive Event where
  | register (kind : Call.Kind)
  | answer (response : Response)
  | report (report : Job.Report)
  | cancel (id : Nat)
  | failAll (reason : LinkError)
deriving DecidableEq

/-- The calls after an event, and the slots it settles. -/
def step (c : Calls) : Event → Calls × List Settlement
  | .register kind =>
    match c.register kind with
    | .ok (_, c) => (c, [])
    | .error _ => (c, [])
  | .answer r => (c.answer r).getD (c, [])
  | .report r => c.report r
  | .cancel id => c.cancel id
  | .failAll reason => (c.failAll reason).getD (c, [])

/-- The calls after some events, and all that these settle, in order. -/
def run (c : Calls) (events : List Event) : Calls × List Settlement :=
  events.foldl (fun (c, settled) e => let (c, more) := c.step e; (c, settled ++ more)) (c, [])

/-- A call that has not ended: it waits for its answer or for its job. -/
def Outstanding (c : Calls) (id : Nat) : Prop :=
  id ∈ Table.keys c.pending ∨ id ∈ Table.values c.jobs.waiting

end Calls

end ServerLink
