import ServerLink.Error

/-!
# How calls end

A call has a slot for the one outcome it waits for. A slot is settled once: it is filled with an
outcome, or it is given up without one.
-/

namespace ServerLink

/-- What a call comes to. -/
abbrev Outcome := Except LinkError Json

/-- How a slot ends. -/
inductive Slot.End where
  | filled (outcome : Outcome)
  /-- Nobody will fill the slot any more. -/
  | abandoned
deriving DecidableEq

/-- A slot, named by its call, and how it ends. -/
structure Settlement where
  call : Nat
  how : Slot.End
deriving DecidableEq

def Settlement.filled (call : Nat) (outcome : Outcome) : Settlement := ⟨call, .filled outcome⟩

def Settlement.abandoned (call : Nat) : Settlement := ⟨call, .abandoned⟩

/-- What a job's last report means for the call that waits for it. -/
def Job.Report.outcome (r : Job.Report) : Outcome :=
  match r.state with
  | .success => .ok r.result
  | _ => .error (.job (.ofReport r))

end ServerLink
