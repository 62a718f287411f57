import Mathlib
import ServerLink.Proofs.Job.News
import ServerLink.Proofs.Json.Alike

/-!
# Members that no schema names

A server may add members to what it sends. Two frames that differ only in members that none of the
schemas on their way names (`MembersAlike`) are treated alike (`unknown_members_never_matter`): both
are refused with the same error, or both are of the same class and say the same, but for what is
kept as it was received.
-/

namespace ServerLink

open Json (Alike Schema Agree Decoder Fields)

/-! ## The schemas -/

def RpcError.schema : Schema := [("code", Eq), ("message", Eq), ("data", Eq)]

def Response.schema : Schema :=
  [("jsonrpc", Eq), ("id", Eq), ("result", Eq), ("error", Alike RpcError.schema)]

def Job.Progress.schema : Schema := [("percent", Eq), ("description", Eq)]

def Job.Report.schema : Schema :=
  [("id", Eq), ("state", Eq), ("result", Eq), ("error", Eq), ("exception", Eq),
    ("progress", Alike Job.Progress.schema)]

/-- What has to be the same in the fields of an item depends on the collection. -/
def Collection.Push.schema (fields : Json → Json → Prop) : Schema :=
  [("msg", Eq), ("collection", Eq), ("id", Eq), ("fields", fields)]

/-- The parameters of two pushes about a collection, which differ only in members that no schema
names: in the fields of a job, too, but the fields of other items are delivered as they are. -/
inductive Collection.Push.ParamsAlike : Json → Json → Prop
  | item {v v' : Json} (h : Alike (schema Eq) v v') : ParamsAlike v v'
  | job {v v' : Json} (hc : Frame.collection? v = some (.string jobCollection))
      (h : Alike (schema (Alike Job.Report.schema)) v v') : ParamsAlike v v'

/-- The parameters of two `job_update`s, which differ only in members that no schema names. -/
inductive Job.ParamsAlike : Json → Json → Prop
  | wrapped {ps ps' : List (String × Json)} {v v' : Json} (hv : ps.lookup "fields" = some v)
      (hv' : ps'.lookup "fields" = some v') (h : Alike Report.schema v v') :
      ParamsAlike (.object ps) (.object ps')
  | bare {v v' : Json} (hv : v.get? "fields" = none) (hv' : v'.get? "fields" = none)
      (h : Alike Report.schema v v') : ParamsAlike v v'

namespace Frame

/-- The parameters of two pushes of one method. No schema looks at those of an unknown method. -/
inductive ParamsAlike : Option String → Json → Json → Prop
  | job {v v' : Json} (h : Job.ParamsAlike v v') : ParamsAlike (some Method.jobUpdate) v v'
  | collection {v v' : Json} (h : Collection.Push.ParamsAlike v v') :
      ParamsAlike (some Method.collectionUpdate) v v'
  | other {method : Option String} {v v' : Json} (hj : method ≠ some Method.jobUpdate)
      (hc : method ≠ some Method.collectionUpdate) : ParamsAlike method v v'

/-- Two messages that differ only in members that no schema names. An answer is read without regard
to a method or parameters, and a push without regard to a result or an error. -/
inductive MembersAlike (ms ms' : List (String × Json)) : Prop
  | answer (hid : HasId ms) (h : Alike Response.schema (.object ms) (.object ms'))
  | push (hno : ¬ HasId ms) (hno' : ¬ HasId ms') (hm : method? ms' = method? ms)
      (hp : ParamsAlike (method? ms) (params ms) (params ms'))

/-- The fields of the job that a push is about. -/
def jobFields (ms : List (String × Json)) : Json :=
  if method? ms = some Method.jobUpdate then jobPayload (params ms)
  else (Job.part? "fields" 3 (params ms)).getD .null

/-- Two messages come to the same: the same error, the same answer or change, reports of a job that
differ in nothing but their payloads, each of which is what its message has, or two messages that
are not recognised and left as they are. -/
inductive TreatedAlike (ms ms' : List (String × Json)) :
    Except FrameError Frame → Except FrameError Frame → Prop
  | refused (e : FrameError) : TreatedAlike ms ms' (.error e) (.error e)
  | answer (r : Response) : TreatedAlike ms ms' (.ok (.answer r)) (.ok (.answer r))
  | change (c : Collection.Change) : TreatedAlike ms ms' (.ok (.change c)) (.ok (.change c))
  | job (r : Job.Report) : TreatedAlike ms ms'
      (.ok (.job { r with payload := jobFields ms }))
      (.ok (.job { r with payload := jobFields ms' }))
  | unrecognized : TreatedAlike ms ms'
      (.ok (.unrecognized (.object ms))) (.ok (.unrecognized (.object ms')))

end Frame

/-! ## Records -/

theorem RpcError.respects : RpcError.fields.Respects schema Eq := by
  refine .map (.pair (.plain ..) (.pair (.plain ..) (.plain ..))) ?_
  rintro ⟨code, message, data⟩ ⟨_, _, _⟩ ⟨rfl, rfl, rfl⟩
  rfl

theorem Response.respects : Response.fields.Respects schema Eq := by
  refine .map (.pair (.plain ..) (.pair (.plain ..) (.pair (.plain ..)
    (.nested "error" fun _ _ => Json.record_alike RpcError.respects)))) ?_
  rintro ⟨jsonrpc, id, result, error⟩ ⟨_, _, _, _⟩ ⟨rfl, rfl, rfl, rfl⟩
  rfl

theorem Job.Progress.respects : Progress.fields.Respects schema Eq := by
  refine .map (.pair (.plain ..) (.plain ..)) ?_
  rintro ⟨percent, description⟩ ⟨_, _⟩ ⟨rfl, rfl⟩
  rfl

theorem Job.Report.respects : Report.fields.Respects schema Eq := by
  refine .map (.pair (.plain ..) (.pair (.plain ..) (.pair (.plain ..) (.pair (.plain ..)
    (.pair (.plain ..) (.nested "progress" fun _ _ => Json.record_alike Progress.respects)))))) ?_
  rintro ⟨id, state, result, error, exception, progress⟩ ⟨_, _, _, _, _, _⟩
    ⟨rfl, rfl, rfl, rfl, rfl, rfl⟩
  rfl

/-- Two pushes that say the same of fields that are so related. -/
structure Collection.Push.Agrees (fields : Json → Json → Prop) (p p' : Push) : Prop where
  message : p.message = p'.message
  collection : p.collection = p'.collection
  id : p.id = p'.id
  fields : fields p.fields p'.fields

theorem Collection.Push.respects {ρ : Json → Json → Prop} (hρ : ∀ v, ρ v v) :
    layout.Respects (schema ρ) (Agrees ρ) := by
  have hfields : (Fields.optional "fields" .null Decoder.any).Respects [("fields", ρ)] ρ :=
    .one (fun _ _ h => .ok h) fun _ _ => hρ _
  refine .map (.pair (.plain ..) (.pair (.plain ..) (.pair (.plain ..) hfields))) ?_
  rintro ⟨message, collection, id, fields⟩ ⟨_, _, _, fields'⟩ ⟨rfl, rfl, rfl, h⟩
  exact ⟨rfl, rfl, rfl, h⟩

theorem Collection.Push.decode_agree {ρ : Json → Json → Prop} (hρ : ∀ v, ρ v v) {v v' : Json}
    (h : Alike (schema ρ) v v') : Agree (Agrees ρ) (decode v) (decode v') :=
  Json.record_agree (respects hρ) (fun p => ⟨rfl, rfl, rfl, hρ p.fields⟩) h

theorem Collection.Push.fields_of_decode {v : Json} {p : Push} (h : decode v = .ok p) :
    p.fields = (Job.part? "fields" 3 v).getD .null := by
  rcases Json.record_eq_ok.1 h with ⟨ms, rfl, hms⟩ | ⟨items, rfl, hitems⟩
  · simp only [layout, Fields.map_ofMembers_eq_ok, Fields.pair_ofMembers_eq_ok,
      Fields.optional_any_ofMembers] at hms
    obtain ⟨⟨message, collection, id, fields⟩, ⟨-, -, -, hfields⟩, rfl⟩ := hms
    exact (Except.ok.inj hfields).symm
  · simp only [layout, Fields.map_ofItems_eq_ok, Fields.pair_ofItems_eq_ok, Fields.required,
      Fields.optional, Fields.nullable, Job.one_ofItems] at hitems
    obtain ⟨⟨message, collection, id, fields⟩, ⟨_, ⟨-, rfl⟩, _, ⟨-, rfl⟩, _, ⟨-, rfl⟩, hfields, -⟩,
      rfl⟩ := hitems
    rw [← Fields.optional, Fields.optional_any_ofMembers] at hfields
    simp only [List.head?_eq_getElem?, List.getElem?_tail] at hfields
    exact (Except.ok.inj hfields).symm

namespace Frame

variable {text text' : String} {ms ms' : List (String × Json)}

/-! ## Frames -/

/-- Reports with payloads that are alike differ in nothing but these payloads. -/
theorem ofJobPayload_treatedAlike {method : String}
    (h : Alike Job.Report.schema (jobFields ms) (jobFields ms')) :
    TreatedAlike ms ms' (ofJobPayload method (jobFields ms))
      (ofJobPayload method (jobFields ms')) := by
  have hdecode : Job.Report.decode (jobFields ms) = Job.Report.decode (jobFields ms') :=
    Json.record_alike Job.Report.respects h
  simp only [ofJobPayload, Job.Report.ofPayload, ← hdecode]
  cases Job.Report.decode (jobFields ms) with
  | ok r => exact .job r
  | error e => exact .refused _

theorem jobPayload_alike {v v' : Json} (h : Job.ParamsAlike v v') :
    Alike Job.Report.schema (jobPayload v) (jobPayload v') := by
  cases h with
  | wrapped hv hv' h => simpa only [jobPayload, Json.get?, hv, hv', Option.getD_some] using h
  | bare hv hv' h => simpa only [jobPayload, hv, hv', Option.getD_none] using h

theorem jobFields_of_collection {p : Collection.Push}
    (hm : method? ms = some Method.collectionUpdate)
    (hp : Collection.Push.decode (params ms) = .ok p) : p.fields = jobFields ms := by
  have hne : method? ms ≠ some Method.jobUpdate := by rw [hm]; decide
  rw [jobFields, if_neg hne]
  exact Collection.Push.fields_of_decode hp

/-- Two pushes about a collection come to the same, if their fields are alike as those of a job, or
the same as those of another item. -/
theorem ofCollectionPush_of_agrees {p p' : Collection.Push} {ρ : Json → Json → Prop}
    (hm : method? ms = some Method.collectionUpdate)
    (hm' : method? ms' = some Method.collectionUpdate)
    (hp : Collection.Push.decode (params ms) = .ok p)
    (hp' : Collection.Push.decode (params ms') = .ok p') (h : p.Agrees ρ p')
    (hjob : p.collection = jobCollection → ∀ v v', ρ v v' → Alike Job.Report.schema v v')
    (hitem : p.collection ≠ jobCollection → ∀ v v', ρ v v' → v = v') :
    TreatedAlike ms ms' (ofCollectionPush (.object ms) (params ms))
      (ofCollectionPush (.object ms') (params ms')) := by
  simp only [ofCollectionPush, hp, hp', ← h.collection, ← h.message, ← h.id]
  split
  · rename_i hc
    have hfields := hjob hc _ _ h.fields
    rw [jobFields_of_collection hm hp, jobFields_of_collection hm' hp'] at hfields ⊢
    exact ofJobPayload_treatedAlike hfields
  · rename_i hc
    rw [hitem hc _ _ h.fields]
    split
    · exact .change _
    · exact .unrecognized

theorem ofCollectionPush_treatedAlike (hm : method? ms = some Method.collectionUpdate)
    (hm' : method? ms' = some Method.collectionUpdate)
    (h : Collection.Push.ParamsAlike (params ms) (params ms')) :
    TreatedAlike ms ms' (ofCollectionPush (.object ms) (params ms))
      (ofCollectionPush (.object ms') (params ms')) := by
  cases h with
  | item h =>
    rcases (Collection.Push.decode_agree (fun _ => rfl) h).cases with
      ⟨p, p', hp, hp', hagrees⟩ | ⟨e, he, he'⟩
    · exact ofCollectionPush_of_agrees hm hm' hp hp' hagrees (fun _ _ _ hv => hv ▸ .same _)
        fun _ _ _ hv => hv
    · simp only [ofCollectionPush, he, he']
      exact .refused _
  | job hc h =>
    rcases (Collection.Push.decode_agree .same h).cases with
      ⟨p, p', hp, hp', hagrees⟩ | ⟨e, he, he'⟩
    · have hjobs : p.collection = jobCollection := by
        rw [collection?_of_decode hp] at hc
        exact Json.string.inj (Option.some.inj hc)
      exact ofCollectionPush_of_agrees hm hm' hp hp' hagrees (fun _ _ _ hv => hv)
        fun hne => absurd hjobs hne
    · simp only [ofCollectionPush, he, he']
      exact .refused _

/-- Messages without an id. -/
theorem ofPush_treatedAlike (hm : method? ms' = method? ms)
    (hp : ParamsAlike (method? ms) (params ms) (params ms')) :
    TreatedAlike ms ms' (ofPush ms) (ofPush ms') := by
  rw [ofPush_eq, ofPush_eq, hm]
  generalize hmethod : method? ms = method at hp
  rw [hmethod] at hm
  cases hp with
  | job h =>
    have hpayload := jobPayload_alike h
    have hfields : jobPayload (params ms) = jobFields ms := by rw [jobFields, if_pos hmethod]
    have hfields' : jobPayload (params ms') = jobFields ms' := by rw [jobFields, if_pos hm]
    rw [hfields, hfields'] at hpayload
    simp only [↓reduceIte, hfields, hfields']
    exact ofJobPayload_treatedAlike hpayload
  | collection h => exact ofCollectionPush_treatedAlike hmethod hm h
  | other hj hc =>
    cases method with
    | none => exact .unrecognized
    | some m =>
      have hj' : m ≠ Method.jobUpdate := fun he => hj (he ▸ rfl)
      have hc' : m ≠ Method.collectionUpdate := fun he => hc (he ▸ rfl)
      simp only [hj', hc', if_false]
      exact .unrecognized

/-- Messages with an id. -/
theorem ofJson_treatedAlike (hid : HasId ms)
    (h : Alike Response.schema (.object ms) (.object ms')) :
    TreatedAlike ms ms' (ofJson (.object ms)) (ofJson (.object ms')) := by
  have hsame : hasId ms' = hasId ms := by
    rw [hasId, hasId, h.lookup_eq (by simp [Response.schema])]
  have hdecode : Response.decode (.object ms) = Response.decode (.object ms') :=
    Json.record_alike Response.respects h
  rw [ofJson, ofJson, hsame, ← hdecode]
  cases hb : hasId ms with
  | error e => exact .refused e
  | ok b =>
    cases b with
    | false => exact absurd hid (hasId_eq_false.1 hb)
    | true =>
      simp only [bind, Except.bind, ↓reduceIte]
      split
      · exact .answer _
      · exact .refused _

/-- **Unknown members never matter.** Two texts that are read, and whose messages differ only in
members that no schema names, come to the same: they are refused with the same error, or are the
same answer or change of a collection, or reports of a job that are the same but for the payload,
which is what each text has, or are both left unrecognised as they are. A text that cannot be read
because of what an unknown member holds, such as `1e999` or half of a surrogate pair, is not one of
them. -/
theorem unknown_members_never_matter (h : Reads text ms) (h' : Reads text' ms')
    (hms : MembersAlike ms ms') : TreatedAlike ms ms' (ofText text) (ofText text') := by
  rw [ofText_of_reads h, ofText_of_reads h']
  cases hms with
  | answer hid h => exact ofJson_treatedAlike hid h
  | push hno hno' hm hp =>
    rw [ofJson_of_noId hno, ofJson_of_noId hno']
    exact ofPush_treatedAlike hm hp

/-- What a server says about a job. -/
def copying : String :=
  "\x7b\"method\":\"job_update\",\"params\":\x7b\"id\":7,\"progress\":\x7b\x7d," ++
    "\"state\":\"RUNNING\"\x7d\x7d"

/-- What a newer server says, which adds a member to each object. -/
def copyingSince : String :=
  "\x7b\"method\":\"job_update\",\"params\":\x7b\"id\":7,\"payload\":1," ++
    "\"progress\":\x7b\"eta\":2\x7d,\"state\":\"RUNNING\"\x7d,\"result\":3\x7d"

/-- The members of both. -/
def copyingMembers (more inFields inProgress : List (String × Json)) : List (String × Json) :=
  [("method", .string "job_update"),
    ("params", .object ([("id", .ofNat 7)] ++ inFields ++
      [("progress", .object inProgress), ("state", .string "RUNNING")]))] ++ more

theorem reads_copying : Reads copying (copyingMembers [] [] []) :=
  ⟨by decide +kernel, by rw [Json.read?, Json.tokens?_eq]; cbv⟩

theorem reads_copyingSince : Reads copyingSince
    (copyingMembers [("result", .ofNat 3)] [("payload", .ofNat 1)] [("eta", .ofNat 2)]) :=
  ⟨by decide +kernel, by rw [Json.read?, Json.tokens?_eq]; cbv⟩

theorem copying_membersAlike : MembersAlike (copyingMembers [] [] [])
    (copyingMembers [("result", .ofNat 3)] [("payload", .ofNat 1)] [("eta", .ofNat 2)]) := by
  have hprogress : Alike Job.Progress.schema (.object []) (.object [("eta", .ofNat 2)]) := by
    refine .object ?_
    simp only [Job.Progress.schema, List.forall_mem_cons]
    exact ⟨.none, .none, by simp⟩
  refine .push (by rintro ⟨v, hv, -⟩; cases hv) (by rintro ⟨v, hv, -⟩; cases hv) rfl ?_
  refine .job (.bare rfl rfl (.object ?_))
  simp only [Job.Report.schema, List.forall_mem_cons]
  exact ⟨.some rfl, .some rfl, .none, .none, .none, .some hprogress, by simp⟩

theorem newer_report_is_treated_alike :
    MembersAlike (copyingMembers [] [] [])
      (copyingMembers [("result", .ofNat 3)] [("payload", .ofNat 1)] [("eta", .ofNat 2)]) ∧
    ofText copying = .ok (.job
      { id := 7, state := .running, progress := some {},
        payload := jobFields (copyingMembers [] [] []) }) ∧
    TreatedAlike (copyingMembers [] [] [])
      (copyingMembers [("result", .ofNat 3)] [("payload", .ofNat 1)] [("eta", .ofNat 2)])
      (ofText copying) (ofText copyingSince) := by
  refine ⟨copying_membersAlike, ?_,
    unknown_members_never_matter reads_copying reads_copyingSince copying_membersAlike⟩
  exact ofText_eq_ok.2 (.jobUpdate reads_copying (by rintro ⟨v, hv, -⟩; cases hv) rfl
    (by decide +kernel))

end Frame

end ServerLink
