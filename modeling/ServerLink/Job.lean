import ServerLink.Message

/-!
# Jobs

A job is work the server goes on with after it has answered the call that started it. The server
reports each change of a job's state; a terminal state is a job's last.
-/

namespace ServerLink.Job

open Json (Decoder Fields ShapeError)

/-- The states of a job. -/
inductive State where
  | waiting
  | pending
  | running
  | success
  | failed
  | aborted
deriving DecidableEq, Repr

namespace State

/-- No other state follows. -/
def isTerminal : State → Bool
  | .success | .failed | .aborted => true
  | .waiting | .pending | .running => false

def name : State → String
  | .waiting => "WAITING"
  | .pending => "PENDING"
  | .running => "RUNNING"
  | .success => "SUCCESS"
  | .failed => "FAILED"
  | .aborted => "ABORTED"

/-- The state with this name, in ASCII letters of either case. -/
def ofName (text : String) : Except ShapeError State :=
  let upper := text.map Char.toUpper
  match [waiting, pending, running, success, failed, aborted].find? (·.name = upper) with
  | some s => .ok s
  | none => .error (.unknown "job state" upper)

def decode : Decoder State := fun v => Decoder.string v >>= ofName

end State

/-- How far a running job has got. -/
structure Progress where
  percent : Option Binary64 := none
  description : Option String := none
deriving DecidableEq

namespace Progress

/-- Both fields are always written. -/
def toJson (p : Progress) : Json :=
  .object [("percent", (p.percent.map fun x => .number (.float x)).getD .null),
    ("description", (p.description.map .string).getD .null)]

def fields : Fields Progress :=
  ((Fields.nullable "percent" Decoder.float).pair
    (Fields.nullable "description" Decoder.string)).map
    fun (percent, description) => { percent, description }

def decode : Decoder Progress := Json.record "JobProgress" fields

end Progress

/-- What the server says about a job. -/
structure Report where
  id : Nat
  state : State
  /-- What the job came to, if its state is `success`. -/
  result : Json := .null
  error : Option Json := none
  exception : Option String := none
  progress : Option Progress := none
  /-- All that the server sent, also members that no field stands for. -/
  payload : Json := .null
deriving DecidableEq

namespace Report

/-- The report without its payload. -/
def toJson (r : Report) : Json :=
  .object ([("id", .ofNat r.id), ("state", .string r.state.name), ("result", r.result)] ++
    Json.member? "error" r.error ++
    Json.member? "exception" (r.exception.map .string) ++
    Json.member? "progress" (r.progress.map Progress.toJson))

def fields : Fields Report :=
  ((Fields.required "id" (Decoder.unsigned 64)).pair
    ((Fields.required "state" State.decode).pair
      ((Fields.optional "result" .null Decoder.any).pair
        ((Fields.nullable "error" Decoder.any).pair
          ((Fields.nullable "exception" Decoder.string).pair
            (Fields.nullable "progress" Progress.decode)))))).map
    fun (id, state, result, error, exception, progress) =>
      { id, state, result, error, exception, progress }

/-- The report without a payload. -/
def decode : Decoder Report := Json.record "JobEvent" fields

/-- The report a value describes; the value is its payload. -/
def ofPayload : Decoder Report := fun v => (decode v).map fun r => { r with payload := v }

/-- The failure the server states: a text as it is, any other value as its document. -/
def errorMessage (r : Report) : Option String :=
  match r.error with
  | none | some .null => none
  | some (.string s) => some s
  | some v => some v.render

end Report

/-- How a job failed. -/
structure Failure where
  jobId : Nat
  state : State
  message : Option String
  exception : Option String
  payload : Json
deriving DecidableEq

namespace Failure

def ofReport (r : Report) : Failure :=
  { jobId := r.id, state := r.state, message := r.errorMessage, exception := r.exception,
    payload := r.payload }

def isAborted (f : Failure) : Bool := f.state == .aborted

def describe (f : Failure) : String :=
  "job " ++ toString f.jobId ++ " " ++ f.state.name ++ ": " ++ f.message.getD "no error reported"

end Failure

/-- The job that the answer to a call names: an unsigned integer, or an object's `job_id`, or its
`id` if it has no `job_id`. -/
def id? : Json → Option Nat
  | .number n => n.toNat?
  | .object ms =>
    match ms.lookup "job_id" with
    | some v => v.toNat?
    | none => (ms.lookup "id").bind Json.toNat?
  | _ => none

end ServerLink.Job
