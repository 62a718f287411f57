import ServerLink.Proofs.Frame
import ServerLink.Proofs.Json.Fields
import ServerLink.Settlement

/-!
# News about jobs

The server tells of a job in one of three forms (`Form.Sent`), which differ in where the payload
stands. They are read alike, well or badly (`ofText_of_sent`), and what is read says what the
payload says, in its members or in its items (`Tells`).
-/

namespace ServerLink.Job

open Json (Decoder Fields)

/-- How the server tells of a job. -/
inductive Form where
  /-- A `job_update` whose parameters are the payload. -/
  | bare
  /-- A `job_update` whose parameters have the payload under `fields`. -/
  | wrapped
  /-- A `collection_update` about the job collection. -/
  | streamed
deriving DecidableEq

namespace Form

def method : Form → String
  | bare | wrapped => Method.jobUpdate
  | streamed => Method.collectionUpdate

/-- The parameters of a push of this form with this payload. -/
inductive Holds (payload : Json) : Form → Json → Prop
  | bare (h : payload.get? "fields" = none) : Holds payload bare payload
  | wrapped {ps : List (String × Json)} (h : ps.lookup "fields" = some payload) :
      Holds payload wrapped (.object ps)
  | streamed {ps : List (String × Json)} {message : String}
      (hm : ps.lookup "msg" = some (.string message))
      (hc : ps.lookup "collection" = some (.string jobCollection))
      (h : ps.lookup "fields" = some payload) : Holds payload streamed (.object ps)

/-- The text is a push of this form with this payload, and without an id. -/
structure Sent (f : Form) (payload : Json) (text : String) : Prop where
  intro ::
  reads : ∃ ms, Frame.Reads text ms ∧ ¬ Frame.HasId ms ∧ Frame.method? ms = some f.method ∧
    Holds payload f (Frame.params ms)

end Form

/-- What a payload has under this name, or at this place if it is a list. -/
def part? (name : String) (index : Nat) : Json → Option Json
  | .object ms => ms.lookup name
  | .array items => items[index]?
  | _ => none

/-- The report says what the payload says. -/
structure Tells (payload : Json) (r : Report) : Prop where
  id : (part? "id" 0 payload).bind Json.toNat? = some r.id
  state : ∃ name, part? "state" 1 payload = some (.string name) ∧ State.ofName name = .ok r.state
  result : r.result = (part? "result" 2 payload).getD .null
  error : r.error = Json.unlessNull (part? "error" 3 payload)
  exception : r.exception = (part? "exception" 4 payload).bind Json.toString?
  payload : r.payload = payload

/-- What the report comes to for the call that waits for the job: a success with the result, or a
failure with all that the report says. -/
inductive Yields (payload : Json) (r : Report) : Outcome → Prop
  | success (hs : r.state = .success) :
      Yields payload r (.ok ((part? "result" 2 payload).getD .null))
  | failure {f : Failure} (hs : r.state ≠ .success) (hid : f.jobId = r.id)
      (hstate : f.state = r.state) (hexception : f.exception = r.exception)
      (hpayload : f.payload = payload) : Yields payload r (.error (.job f))

variable {payload : Json} {text : String} {r : Report}

/-! ## Reading -/

/-- A push about the job collection has the payload that it holds, whatever its message and
whichever item it names. -/
theorem decode_streamed {ps : List (String × Json)} {message : String}
    (hm : ps.lookup "msg" = some (.string message))
    (hc : ps.lookup "collection" = some (.string jobCollection))
    (h : ps.lookup "fields" = some payload) : ∃ id, Collection.Push.decode (.object ps) =
      .ok { message, collection := jobCollection, id, fields := payload } := by
  obtain ⟨id, hid⟩ := Fields.nullable_any_ofMembers "id" (ps.lookup ·)
  refine ⟨id, Json.record_object_eq_ok.2 (Fields.map_ofMembers_eq_ok.2
    ⟨(message, jobCollection, id, payload), ?_, rfl⟩)⟩
  refine Fields.pair_ofMembers_eq_ok.2 ⟨Fields.one_of_lookup hm rfl, ?_⟩
  refine Fields.pair_ofMembers_eq_ok.2 ⟨Fields.one_of_lookup hc rfl, ?_⟩
  exact Fields.pair_ofMembers_eq_ok.2 ⟨hid, Fields.one_of_lookup h rfl⟩

/-- A push is read as what its payload is read as, whatever its form. -/
theorem ofText_of_sent {f : Form} (h : f.Sent payload text) :
    Frame.ofText text = Frame.ofJobPayload f.method payload := by
  obtain ⟨ms, hreads, hno, hm, hp⟩ := h.reads
  rw [Frame.ofText_of_reads hreads, Frame.ofJson_of_noId hno, Frame.ofPush_eq, hm]
  generalize Frame.params ms = ps at hp
  cases hp with
  | bare hfields =>
    show Frame.ofJobPayload _ (Frame.jobPayload payload) = _
    rw [Frame.jobPayload, hfields]
    rfl
  | @wrapped ps hfields =>
    show Frame.ofJobPayload _ (Frame.jobPayload (.object ps)) = _
    rw [Frame.jobPayload, Json.get?, hfields]
    rfl
  | @streamed ps message hmsg hc hfields =>
    obtain ⟨id, hid⟩ := decode_streamed hmsg hc hfields
    show Frame.ofCollectionPush _ (.object ps) = _
    simp only [Frame.ofCollectionPush, hid, ↓reduceIte]
    rfl

/-- A field is read from the next item as from its member. -/
theorem one_ofItems {α : Type} {name : String} {absent : Option α} {read : Decoder α} {a : α}
    {tooFew : Nat → Json.ShapeError} {index : Nat} {items rest : List Json} :
    (Fields.one name absent read).ofItems tooFew index items = .ok (a, rest) ↔
      (Fields.one name absent read).ofMembers (fun _ => items.head?) = .ok a ∧
        rest = items.tail := by
  rw [Fields.one_ofItems_eq_ok, Fields.one_ofMembers_eq_ok]
  cases items with
  | nil => simp [and_comm]
  | cons v items => simp [and_comm, eq_comm, and_assoc]

/-- The fields of a report are read from the members or from the items of a value. -/
theorem Report.decode_parts {v : Json} (h : Report.decode v = .ok r) :
    (Fields.required "id" (Decoder.unsigned 64)).ofMembers (fun _ => part? "id" 0 v) = .ok r.id ∧
    (Fields.required "state" State.decode).ofMembers (fun _ => part? "state" 1 v) = .ok r.state ∧
    (Fields.optional "result" .null Decoder.any).ofMembers (fun _ => part? "result" 2 v) =
      .ok r.result ∧
    (Fields.nullable "error" Decoder.any).ofMembers (fun _ => part? "error" 3 v) = .ok r.error ∧
    (Fields.nullable "exception" Decoder.string).ofMembers (fun _ => part? "exception" 4 v) =
      .ok r.exception := by
  rcases Json.record_eq_ok.1 h with ⟨ms, rfl, hms⟩ | ⟨items, rfl, hitems⟩
  · simp only [Report.fields, Fields.map_ofMembers_eq_ok, Fields.pair_ofMembers_eq_ok] at hms
    obtain ⟨⟨id, state, result, error, exception, progress⟩, ⟨hid, hstate, hresult, herror,
      hexception, -⟩, rfl⟩ := hms
    exact ⟨hid, hstate, hresult, herror, hexception⟩
  · simp only [Report.fields, Fields.map_ofItems_eq_ok, Fields.pair_ofItems_eq_ok,
      Fields.required, Fields.optional, Fields.nullable, one_ofItems] at hitems
    obtain ⟨⟨id, state, result, error, exception, progress⟩, ⟨_, ⟨hid, rfl⟩, _, ⟨hstate, rfl⟩,
      _, ⟨hresult, rfl⟩, _, ⟨herror, rfl⟩, _, ⟨hexception, rfl⟩, -⟩, rfl⟩ := hitems
    simp only [List.head?_eq_getElem?, List.getElem?_tail] at hid hstate hresult herror hexception
    exact ⟨hid, hstate, hresult, herror, hexception⟩

/-- What is read from a payload is what it says. -/
theorem tells_of_ofPayload (h : Report.ofPayload payload = .ok r) : Tells payload r := by
  obtain ⟨r, hr, rfl⟩ := Json.map_eq_ok.1 h
  obtain ⟨hid, hstate, hresult, herror, hexception⟩ := Report.decode_parts hr
  rw [Fields.optional_any_ofMembers] at hresult
  rw [Fields.nullable_any_ofMembers_eq] at herror
  simp only [Fields.required, Fields.nullable, Fields.one_ofMembers_eq_ok, reduceCtorEq, and_false,
    or_false, Decoder.unsigned_eq_ok] at hid hstate hexception
  obtain ⟨v, hv, hid⟩ := hid
  obtain ⟨s, hs, hstate⟩ := hstate
  obtain ⟨name, hname, hstate⟩ := Json.bind_eq_ok.1 hstate
  refine ⟨by rw [hv]; exact hid, ⟨name, ?_, hstate⟩, (Except.ok.inj hresult).symm,
    (Except.ok.inj herror).symm, ?_, rfl⟩
  · rw [hs, Decoder.string_eq_ok.1 hname]
  · rcases hexception with ⟨w, hw, hread⟩ | ⟨hnone, he⟩
    · rw [hw]
      rcases Decoder.option_eq_ok.1 hread with ⟨rfl, he⟩ | ⟨-, text, htext, he⟩
      · exact he
      · rw [Decoder.string_eq_ok.1 htext]
        exact he
    · rw [hnone]
      exact (Option.some.inj he).symm

theorem Tells.yields (h : Tells payload r) : Yields payload r r.outcome := by
  unfold Report.outcome
  split
  · rename_i hs
    rw [h.result]
    exact .success hs
  · rename_i hs
    exact .failure hs rfl rfl rfl h.payload

end ServerLink.Job
