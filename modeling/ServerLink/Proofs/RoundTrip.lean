import Mathlib
import ServerLink.Proofs.Frame
import ServerLink.Proofs.Json.Canonical
import ServerLink.Proofs.Json.Fields

/-!
# Messages that are written and read

Reading gives back what was written, but for an error's data or a job's error that is written as
null, which is read as absent; and what was read once is given back as it is
(`messages_are_read_back`). The members may be in any order (`Arranges`): a text has them in the
order of the fields, a value that was read in the order of the keys.
-/

namespace ServerLink

open Json (Decoder Fields Arranges)

/-! ## What is written -/

/-- The id is one of 64 bits. -/
def Request.Fits (r : Request) : Prop := r.id < 2 ^ 64

namespace RpcError

/-- The code is one of 64 bits. -/
def Fits (e : RpcError) : Prop := -2 ^ 63 ≤ e.code ∧ e.code < 2 ^ 63

/-- What is left of an error that is written and read: data that is null is as good as none. -/
def kept (e : RpcError) : RpcError := { e with data := Json.unlessNull e.data }

end RpcError

namespace Response

/-- The numbers are ones of 64 bits. -/
def Fits (r : Response) : Prop := r.id < 2 ^ 64 ∧ ∀ e, r.error = some e → e.Fits

def kept (r : Response) : Response := { r with error := r.error.map RpcError.kept }

end Response

namespace Job.Report

/-- The id is one of 64 bits. -/
def Fits (r : Report) : Prop := r.id < 2 ^ 64

/-- What is left of a report that is written and read: an error that is null is as good as none,
and the payload is not written. -/
def kept (r : Report) : Report := { r with error := Json.unlessNull r.error, payload := .null }

end Job.Report

/-- Reading undoes writing, up to what is not kept, and gives back all that was ever read. -/
structure Inverse {α : Type} (write : α → Json) (read : Decoder α) (fits : α → Prop)
    (kept : α → α) : Prop where
  read_write : ∀ x, fits x → read (write x) = .ok (kept x)
  reread : ∀ v x, read v = .ok x → read (write x) = .ok x

theorem Inverse.of_gives {α : Type} {write : α → Json} {read : Decoder α} {fits : α → Prop}
    {kept : α → α} (hwrite : ∀ x, fits x → read (write x) = .ok (kept x))
    (hread : ∀ v x, read v = .ok x → fits x ∧ kept x = x) : Inverse write read fits kept where
  read_write := hwrite
  reread v x hx := by
    obtain ⟨hfits, hkept⟩ := hread v x hx
    rw [hwrite x hfits, hkept]

variable {arrange : Json → Json}

/-! ## Requests and notifications -/

namespace Request

/-- A request is read from what it is written as, in whatever order its members are. -/
theorem decode_arranged (ha : Arranges arrange) {r : Request} (h : r.Fits)
    (hparams : arrange r.params = r.params) : decode (arrange r.toJson) = .ok r := by
  obtain ⟨ms, hms, hlook⟩ := ha.lookup (v := r.toJson) rfl
    (by cases r.params.isNull <;> simp [Table.keys, Json.member?])
  simp only [Json.get?, toJson, List.cons_append, List.nil_append, List.lookup_cons,
    Json.lookup_member?] at hlook
  have hp : (ms.lookup "params").getD .null = r.params := by
    rw [hlook]
    cases hv : r.params <;> simp_all [Json.isNull]
  rw [hms, decode, Json.record_object_eq_ok, fields, Fields.map_ofMembers_eq_ok]
  refine ⟨(r.jsonrpc, r.id, r.method, r.params), ?_, rfl⟩
  refine Fields.pair_ofMembers_eq_ok.2 ⟨?_, Fields.pair_ofMembers_eq_ok.2 ⟨?_,
    Fields.pair_ofMembers_eq_ok.2 ⟨?_, ?_⟩⟩⟩
  · exact Fields.one_of_lookup (by rw [hlook]; simp [ha.string]) (Decoder.string_eq_ok.2 rfl)
  · exact Fields.one_of_lookup (by rw [hlook]; simp [Json.ofNat, ha.number])
      (Decoder.unsigned_eq_ok.2 (Json.toNat?_ofNat h))
  · exact Fields.one_of_lookup (by rw [hlook]; simp [ha.string]) (Decoder.string_eq_ok.2 rfl)
  · rw [Fields.optional_any_ofMembers, hp]

theorem fields_gives : fields.Gives Fits := by
  refine Fields.Gives.map (P := fun p => True ∧ p.2.1 < 2 ^ 64 ∧ True) ?_ fun p hp => hp.2.1
  exact .pair (.any _ _ _) (.pair (.unsigned _) ⟨fun _ => trivial, fun _ => trivial⟩)

theorem inverse : Inverse toJson decode Fits fun r => r :=
  .of_gives (fun _ h => decode_arranged .id h rfl) fun _ _ h => ⟨fields_gives.record h, rfl⟩

end Request

namespace Notification

theorem decode_toJson (n : Notification) : decode n.toJson = .ok n := by
  rw [toJson, decode, Json.record_object_eq_ok, fields, Fields.map_ofMembers_eq_ok]
  refine ⟨(n.jsonrpc, n.method, n.params), ?_, rfl⟩
  simp [Fields.optional, Fields.required, List.lookup_cons]

theorem inverse : Inverse toJson decode (fun _ => True) fun n => n :=
  .of_gives (fun n _ => decode_toJson n) fun _ _ _ => ⟨trivial, rfl⟩

end Notification

/-! ## Error objects and answers -/

namespace RpcError

/-- An error object is read from what it is written as, in whatever order its members are. -/
theorem decode_arranged (ha : Arranges arrange) {e : RpcError} (h : e.Fits)
    (hdata : e.data.map arrange = e.data) : decode (arrange e.toJson) = .ok e.kept := by
  obtain ⟨ms, hms, hlook⟩ := ha.lookup (v := e.toJson) rfl
    (by cases e.data <;> simp [Table.keys, Json.member?])
  simp only [Json.get?, toJson, List.cons_append, List.nil_append, List.lookup_cons,
    Json.lookup_member?] at hlook
  rw [hms, decode, Json.record_object_eq_ok, fields, Fields.map_ofMembers_eq_ok]
  refine ⟨(e.code, e.message, Json.unlessNull e.data), ?_, rfl⟩
  refine Fields.pair_ofMembers_eq_ok.2 ⟨?_, Fields.pair_ofMembers_eq_ok.2 ⟨?_, ?_⟩⟩
  · refine Fields.one_of_lookup (v := .ofInt e.code) ?_ (Json.signed_ofInt h)
    rw [hlook]
    simp [ha.ofInt]
  · exact Fields.one_of_lookup (by rw [hlook]; simp [ha.string]) (Decoder.string_eq_ok.2 rfl)
  · rw [Fields.nullable_any_ofMembers_eq, hlook]
    simp [hdata]

theorem fields_gives : fields.Gives fun e => e.Fits ∧ e.kept = e := by
  refine Fields.Gives.map
    (.pair (.signed _) (.pair (.any _ _ _) (.unlessNull _))) fun p hp => ⟨hp.1, ?_⟩
  rw [kept, hp.2.2]

theorem inverse : Inverse toJson decode Fits kept :=
  .of_gives (fun _ h => decode_arranged .id h (by simp)) fun _ _ h => fields_gives.record h

end RpcError

namespace Response

/-- An answer is read from what it is written as, in whatever order its members are. -/
theorem decode_arranged (ha : Arranges arrange) {r : Response} (h : r.Fits)
    (hresult : arrange r.result = r.result)
    (hdata : ∀ e, r.error = some e → e.data.map arrange = e.data) :
    decode (arrange r.toJson) = .ok r.kept := by
  obtain ⟨ms, hms, hlook⟩ := ha.lookup (v := r.toJson) rfl
    (by cases r.error <;> simp [Table.keys, Json.member?])
  simp only [Json.get?, toJson, List.cons_append, List.nil_append, List.lookup_cons,
    Json.lookup_member?] at hlook
  rw [hms, decode_eq_ok]
  refine ⟨.inl (by rw [hlook]; simp [ha.string, kept]), ?_, by rw [hlook]; simp [hresult, kept], ?_⟩
  · rw [hlook]
    simp [Json.ofNat, ha.number]
    exact Json.toNat?_ofNat h.1
  · rw [hlook]
    cases he : r.error with
    | none => exact .inl ⟨by simp, by rw [kept, he]; rfl⟩
    | some e =>
      have hread := RpcError.decode_arranged ha (h.2 e he) (hdata e he)
      refine .inr ⟨arrange e.toJson, e.kept, by simp, fun hnull => ?_, hread, by rw [kept, he]; rfl⟩
      rw [hnull] at hread
      cases hread

theorem fields_gives : fields.Gives fun r => r.Fits ∧ r.kept = r := by
  refine Fields.Gives.map (.pair (.any _ _ _) (.pair (.unsigned _) (.pair (.any _ _ _)
    (.nullable fun _ _ => RpcError.fields_gives.record)))) ?_
  rintro ⟨tag, id, result, error⟩ ⟨-, hid, -, herror⟩
  refine ⟨⟨hid, fun e he => (herror e he).1⟩, ?_⟩
  have hkept : error.map RpcError.kept = error := by
    cases error with
    | none => rfl
    | some e => exact congrArg some (herror e rfl).2
  rw [kept, hkept]

theorem inverse : Inverse toJson decode Fits kept :=
  .of_gives (fun _ h => decode_arranged .id h rfl fun _ _ => by simp) fun _ _ h => fields_gives.record h

end Response

/-! ## Job reports -/

namespace Job

/-- A state is read from its name. -/
theorem State.decode_name (s : State) : State.decode (.string s.name) = .ok s := by
  show State.ofName s.name = .ok s
  cases s <;> decide +kernel

theorem Progress.decode_toJson (p : Progress) : Progress.decode p.toJson = .ok p := by
  rw [toJson, Progress.decode, Json.record_object_eq_ok, fields, Fields.map_ofMembers_eq_ok]
  refine ⟨(p.percent, p.description), ?_, rfl⟩
  obtain ⟨percent, description⟩ := p
  cases percent <;> cases description <;>
    simp [Fields.nullable, List.lookup_cons, Decoder.option_eq_ok, Decoder.float]

namespace Report

theorem decode_toJson {r : Report} (h : r.Fits) : decode r.toJson = .ok r.kept := by
  obtain ⟨ms, hms⟩ : ∃ ms, r.toJson = .object ms := ⟨_, rfl⟩
  have hlook : ∀ k, ms.lookup k = r.toJson.get? k := by simp [hms, Json.get?]
  simp only [Json.get?, toJson, List.cons_append, List.nil_append, List.lookup_cons,
    List.lookup_append, Json.lookup_member?] at hlook
  rw [hms]
  rw [decode, Json.record_object_eq_ok, fields, Fields.map_ofMembers_eq_ok]
  refine ⟨(r.id, r.state, r.result, Json.unlessNull r.error, r.exception, r.progress), ?_, rfl⟩
  refine Fields.pair_ofMembers_eq_ok.2 ⟨?_, Fields.pair_ofMembers_eq_ok.2 ⟨?_,
    Fields.pair_ofMembers_eq_ok.2 ⟨?_, Fields.pair_ofMembers_eq_ok.2 ⟨?_,
    Fields.pair_ofMembers_eq_ok.2 ⟨?_, ?_⟩⟩⟩⟩⟩
  · exact Fields.one_of_lookup (by rw [hlook]; simp)
      (Decoder.unsigned_eq_ok.2 (Json.toNat?_ofNat h))
  · exact Fields.one_of_lookup (by rw [hlook]; simp) (State.decode_name _)
  · rw [Fields.optional_any_ofMembers, hlook]
    simp
  · rw [Fields.nullable_any_ofMembers_eq, hlook]
    simp
  · have hexception : ms.lookup "exception" = r.exception.map .string := by
      rw [hlook]
      simp
    exact Fields.nullable_of_lookup hexception (by simp) fun _ => rfl
  · have hprogress : ms.lookup "progress" = r.progress.map Progress.toJson := by
      rw [hlook]
      simp
    exact Fields.nullable_of_lookup hprogress (by simp [Progress.toJson]) Progress.decode_toJson

theorem fields_gives : fields.Gives fun r => r.Fits ∧ r.kept = r := by
  refine Fields.Gives.map (.pair (.unsigned _) (.pair (.any _ _ _) (.pair (.any _ _ _)
    (.pair (.unlessNull _) (.pair (.any _ _ _) (.any _ _ _)))))) ?_
  rintro ⟨id, state, result, error, exception, progress⟩ ⟨hid, -, -, herror, -⟩
  refine ⟨hid, ?_⟩
  rw [kept, herror]

theorem inverse : Inverse toJson decode Fits kept :=
  .of_gives (fun _ h => decode_toJson h) fun _ _ h => fields_gives.record h

end Report

end Job

/-! ## Texts -/

/-- Reading the text of a value gives the value. -/
def Json.ReadsBack (v : Json) : Prop := Json.read? v.render = some v.canonical

namespace Response

/-- The values are as a reader keeps them. -/
structure InOrder (r : Response) : Prop where
  result : r.result.canonical = r.result
  data : ∀ e, r.error = some e → e.data.map Json.canonical = e.data

/-- The frame of an answer is that answer. -/
theorem ofText_render {r : Response} (h : r.Fits) (hr : r.InOrder) (hread : r.toJson.ReadsBack)
    (hsize : r.toJson.render.utf8ByteSize ≤ maxFrameSize) :
    Frame.ofText r.toJson.render = .ok (.answer r.kept) := by
  have hdecode := decode_arranged Json.canonical_arranges h hr.result hr.data
  obtain ⟨ms, hms⟩ : ∃ ms, r.toJson.canonical = .object ms := ⟨_, rfl⟩
  rw [hms] at hdecode
  exact Frame.ofText_eq_ok.2 (.answer ⟨hsize, hread.trans (congrArg some hms)⟩ hdecode)

end Response

/-- What a request is sent as is no larger than a frame may be, and is read as that request. -/
theorem Request.read_frame {r : Request} {text : String} (h : r.frame = .ok text) :
    text.utf8ByteSize ≤ maxFrameSize ∧
      (r.Fits → r.params.canonical = r.params → r.toJson.ReadsBack →
        ∃ v, Json.read? text = some v ∧ decode v = .ok r) := by
  simp only [frame] at h
  split at h
  · cases h
  · rename_i hsize
    cases h
    refine ⟨Nat.not_lt.1 hsize, fun hfits hparams hread => ?_⟩
    exact ⟨_, hread, decode_arranged Json.canonical_arranges hfits hparams⟩

/-! ## Round trips -/

/-- What is written is read back: every message from its value, an answer from its frame and a
request from what it is sent as. -/
theorem messages_are_read_back :
    Inverse Request.toJson Request.decode Request.Fits (fun r => r) ∧
    Inverse Response.toJson Response.decode Response.Fits Response.kept ∧
    Inverse Notification.toJson Notification.decode (fun _ => True) (fun n => n) ∧
    Inverse RpcError.toJson RpcError.decode RpcError.Fits RpcError.kept ∧
    Inverse Job.Report.toJson Job.Report.decode Job.Report.Fits Job.Report.kept ∧
    (∀ r : Response, r.Fits → r.InOrder → r.toJson.ReadsBack →
      r.toJson.render.utf8ByteSize ≤ maxFrameSize →
      Frame.ofText r.toJson.render = .ok (.answer r.kept)) ∧
    (∀ (r : Request) (text : String), r.frame = .ok text →
      text.utf8ByteSize ≤ maxFrameSize ∧
      (r.Fits → r.params.canonical = r.params → r.toJson.ReadsBack →
        ∃ v, Json.read? text = some v ∧ Request.decode v = .ok r)) := by
  refine ⟨Request.inverse, Response.inverse, Notification.inverse, RpcError.inverse,
    Job.Report.inverse, ?_, ?_⟩
  · exact fun r h hr hread hsize => r.ofText_render h hr hread hsize
  · exact fun r text h => r.read_frame h

/-- An answer whose error has data, which are null. -/
def refusal : Response :=
  .failure 7 { code := -32000, message := "no", data := some .null }

theorem render_refusal : refusal.toJson.render =
    "\x7b\"jsonrpc\":\"2.0\",\"id\":7,\"result\":null," ++
      "\"error\":\x7b\"code\":-32000,\"message\":\"no\",\"data\":null\x7d\x7d" := by
  simp only [refusal, Response.toJson, Response.failure, RpcError.toJson, Json.member?, Option.map,
    Option.toList, List.cons_append, List.nil_append, Json.render, Json.put, Json.putMembers,
    Json.putString, String.foldl_eq_foldl_toList]
  cbv

theorem tokens_refusal : Json.tokens? refusal.toJson.render = some
    [.openObject, .scalar (.string "jsonrpc"), .colon, .scalar (.string "2.0"), .comma,
      .scalar (.string "id"), .colon, .scalar (.ofNat 7), .comma,
      .scalar (.string "result"), .colon, .scalar .null, .comma,
      .scalar (.string "error"), .colon,
      .openObject, .scalar (.string "code"), .colon, .scalar (.ofInt (-32000)), .comma,
        .scalar (.string "message"), .colon, .scalar (.string "no"), .comma,
        .scalar (.string "data"), .colon, .scalar .null, .closeObject,
      .closeObject] := by
  rw [render_refusal, Json.tokens?_eq]
  cbv

/-- Data that are null are written, and read as absent. -/
theorem refusal_is_read_back :
    let read := Response.failure 7 { code := -32000, message := "no" }
    Response.decode refusal.toJson = .ok read ∧
      Frame.ofText refusal.toJson.render = .ok (.answer read) := by
  have hfits : refusal.Fits := by
    refine ⟨by decide, ?_⟩
    rintro e ⟨⟩
    exact ⟨by decide, by decide⟩
  have horder : refusal.InOrder := by
    refine ⟨rfl, ?_⟩
    rintro e ⟨⟩
    rfl
  have hread : refusal.toJson.ReadsBack := by
    rw [Json.ReadsBack, Json.read?, tokens_refusal]
    rfl
  have hsize : refusal.toJson.render.utf8ByteSize ≤ maxFrameSize := by
    rw [render_refusal]
    decide +kernel
  exact ⟨messages_are_read_back.2.1.read_write _ hfits,
    messages_are_read_back.2.2.2.2.2.1 _ hfits horder hread hsize⟩

end ServerLink
