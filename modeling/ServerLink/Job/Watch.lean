import ServerLink.Settlement
import ServerLink.Table

/-!
# Waiting for jobs

A call that starts a job ends with the job's last report, which may come before the answer that
says which job it is. `Watch` keeps the calls that wait for a job and, for jobs that nobody waits
for yet, the most recent of their last reports.
-/

namespace ServerLink.Job

/-- How many last reports are kept for jobs that nobody waits for. -/
def earlyCapacity : Nat := 128

structure Watch where
  /-- The call that waits for each job. -/
  waiting : Table Nat Nat := []
  /-- Last reports that found nobody waiting, the earliest first. -/
  early : List Report := []
deriving DecidableEq

namespace Watch

/-- Lets a call wait for a job. A report that is already there ends the call at once; otherwise
the call takes the place of one that waited for the same job, whose slot is given up. -/
def attach (w : Watch) (job call : Nat) : Watch × List Settlement :=
  match w.early.find? (·.id = job) with
  | some r => ({ w with early := w.early.eraseP (·.id = job) }, [.filled call r.outcome])
  | none =>
    ({ w with waiting := Table.insert w.waiting job call },
      ((w.waiting.lookup job).map Settlement.abandoned).toList)

/-- Keeps a last report, in place of the earliest one if there is no room. -/
def remember (w : Watch) (r : Report) : Watch :=
  { w with early := (if w.early.length = earlyCapacity then w.early.drop 1 else w.early) ++ [r] }

/-- Takes a report. Only a last report matters: it ends the call that waits for the job, or it is
kept. -/
def report (w : Watch) (r : Report) : Watch × List Settlement :=
  if r.state.isTerminal then
    match w.waiting.lookup r.id with
    | some call => ({ w with waiting := Table.erase w.waiting r.id }, [.filled call r.outcome])
    | none => (w.remember r, [])
  else (w, [])

/-- Gives up what a call waits for. -/
def forget (w : Watch) (call : Nat) : Watch × List Settlement :=
  ({ w with waiting := w.waiting.filter (·.2 ≠ call) },
    (w.waiting.filter (·.2 = call)).map fun e => .abandoned e.2)

/-- Ends every waiting call with an error and forgets the reports kept. -/
def failAll (w : Watch) (reason : LinkError) : Watch × List Settlement :=
  ({}, w.waiting.map fun e => .filled e.2 (.error reason))

/-- What can happen to a watch. -/
inductive Event where
  | attach (job call : Nat)
  | report (report : Report)
  | forget (call : Nat)
  | failAll (reason : LinkError)
deriving DecidableEq

def step (w : Watch) : Event → Watch × List Settlement
  | .attach job call => w.attach job call
  | .report r => w.report r
  | .forget call => w.forget call
  | .failAll reason => w.failAll reason

/-- The watch after some events, and all slots that these settle, in order. -/
def run (w : Watch) (events : List Event) : Watch × List Settlement :=
  events.foldl (fun (w, settled) e => let (w, more) := w.step e; (w, settled ++ more)) (w, [])

end Watch

end ServerLink.Job
