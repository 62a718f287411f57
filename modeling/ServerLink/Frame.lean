import ServerLink.Collection
import ServerLink.Job
import ServerLink.Json.Reader
import ServerLink.Text.Blank

/-!
# Frames

A frame is one message on the wire. `Request.frame` writes a request; `Frame.ofText` reads what
the server sent and sorts it by its shape and method alone: an answer has an id; a job report is a
`job_update`, or a `collection_update` about the job collection; a change is any other
`collection_update` whose kind is known. What is none of these is left unrecognised.
-/

namespace ServerLink

open Json (ShapeError)

/-- The largest frame, in bytes. -/
def maxFrameSize : Nat := 16 * 1024 * 1024

namespace Method

/-- The methods that the link itself calls. -/
def login : String := "auth.login_ex"
def systemVersion : String := "system.version"
def ping : String := "core.ping"
def subscribe : String := "core.subscribe"

/-- The methods of the server's pushes. -/
def collectionUpdate : String := "collection_update"
def jobUpdate : String := "job_update"

end Method

/-- The collection whose updates are job reports. -/
def jobCollection : String := "core.get_jobs"

/-- Why a frame cannot be written or understood. -/
inductive FrameError where
  | tooLarge (size limit : Nat)
  /-- The text is no document. -/
  | unreadable
  /-- The frame has an id, but not the shape of an answer. -/
  | misshapen (error : ShapeError)
  | empty
  | notAMessage (reason : String)
  | badId (id : String)
  /-- A push whose parameters are not those of its method. -/
  | malformed (method : String) (reason : String)
deriving DecidableEq

def FrameError.message : FrameError → String
  | .tooLarge size limit =>
    "message too large: " ++ toString size ++ " bytes (max: " ++ toString limit ++ ")"
  | .unreadable => "serialization failed: the text is not well-formed"
  | .misshapen error => "serialization failed: " ++ error.message
  | .empty => "empty message"
  | .notAMessage reason => "invalid frame: " ++ reason
  | .badId id => "invalid response id: " ++ id
  | .malformed method reason => "malformed " ++ method ++ " notification: " ++ reason

/-- The frame of a request, unless it would be too large. -/
def Request.frame (r : Request) : Except FrameError String :=
  let text := r.toJson.render
  if maxFrameSize < text.utf8ByteSize then .error (.tooLarge text.utf8ByteSize maxFrameSize)
  else .ok text

/-- What a frame is, by whom it concerns. -/
inductive Frame where
  /-- The answer to a request. -/
  | answer (response : Response)
  /-- News for those who wait for a job. -/
  | job (report : Job.Report)
  /-- News for the subscribers of a collection. -/
  | change (change : Collection.Change)
  | unrecognized (message : Json)
deriving DecidableEq

namespace Frame

/-- What kind of value a document is, for the error about one that is no object. -/
def kindName : Json → String
  | .null => "null"
  | .bool _ => "a boolean"
  | .number _ => "a number"
  | .string _ => "a string"
  | .array _ => "an array"
  | .object _ => "an object"

/-- Whether a message is an answer: it has an id, which then has to be an unsigned integer. -/
def hasId (members : List (String × Json)) : Except FrameError Bool :=
  match members.lookup "id" with
  | none | some .null => .ok false
  | some id => if id.toNat?.isSome then .ok true else .error (.badId id.render)

/-- The job that a `job_update` is about: what its parameters hold under the name `fields`, or
else the parameters themselves. -/
def jobPayload (params : Json) : Json := (params.get? "fields").getD params

/-- The job report with this payload, in a push of this method. -/
def ofJobPayload (method : String) (payload : Json) : Except FrameError Frame :=
  match Job.Report.ofPayload payload with
  | .ok r => .ok (.job r)
  | .error e => .error (.malformed method e.message)

/-- A push about a collection. -/
def ofCollectionPush (message params : Json) : Except FrameError Frame :=
  match Collection.Push.decode params with
  | .error e => .error (.malformed Method.collectionUpdate e.message)
  | .ok push =>
    if push.collection = jobCollection then ofJobPayload Method.collectionUpdate push.fields
    else match Collection.Kind.ofName? push.message with
      | some kind =>
        .ok (.change { collection := push.collection, kind, id := push.id, fields := push.fields })
      | none => .ok (.unrecognized message)

/-- Sorts a message that is no answer. -/
def ofPush (members : List (String × Json)) : Except FrameError Frame :=
  let message := Json.object members
  let params := (members.lookup "params").getD .null
  match (members.lookup "method").bind Json.toString? with
  | none => .ok (.unrecognized message)
  | some method =>
    if method = Method.jobUpdate then ofJobPayload Method.jobUpdate (jobPayload params)
    else if method = Method.collectionUpdate then ofCollectionPush message params
    else .ok (.unrecognized message)

/-- Sorts a document. -/
def ofJson : Json → Except FrameError Frame
  | .object members => do
    if ← hasId members then
      match Response.decode (.object members) with
      | .ok r => .ok (.answer r)
      | .error e => .error (.misshapen e)
    else ofPush members
  | v => .error (.notAMessage ("expected a JSON object, got " ++ kindName v))

/-- Reads and sorts a frame. -/
def ofText (text : String) : Except FrameError Frame :=
  if Text.allBlank text then .error .empty
  else if maxFrameSize < text.utf8ByteSize then .error (.tooLarge text.utf8ByteSize maxFrameSize)
  else match Json.read? text with
    | none => .error .unreadable
    | some v => ofJson v

end Frame

end ServerLink
