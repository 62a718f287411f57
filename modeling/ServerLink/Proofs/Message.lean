import ServerLink.Message
import ServerLink.Proofs.Json.Shape

/-!
# What answers are read from

Which documents with an id are answers (`Response.decode_isOk`): the version tag, if there is one,
has to be a text, and the error, if there is one, an error object with a code and a message
(`RpcError.decode_isOk`). The result can be anything.
-/

namespace ServerLink

open Json (Decoder Fields ShapeError)

/-! ## Fields that can hold anything -/

namespace Json.Fields

theorem nullable_any_ofMembers (name : String) (look : String → Option Json) :
    ∃ a, (nullable name Decoder.any).ofMembers look = .ok a := by
  cases hl : look name with
  | none => exact ⟨none, one_ofMembers_eq_ok.2 (.inr ⟨hl, rfl⟩)⟩
  | some v =>
    cases v with
    | null => exact ⟨none, one_ofMembers_eq_ok.2 (.inl ⟨_, hl, rfl⟩)⟩
    | _ => exact ⟨some _, one_ofMembers_eq_ok.2 (.inl ⟨_, hl, rfl⟩)⟩

/-- As the last field of a record it takes the last item, if there is one. -/
theorem nullable_any_ofItems (name : String) (tooFew : Nat → ShapeError) {items : List Json}
    (h : items.length ≤ 1) :
    ∃ a, ∀ index, (nullable name Decoder.any).ofItems tooFew index items = .ok (a, []) := by
  match items, h with
  | [], _ => exact ⟨none, fun _ => rfl⟩
  | [v], _ => cases v <;> exact ⟨_, fun _ => rfl⟩

end Json.Fields

/-! ## Error objects and answers -/

/-- An integer of 64 bits with a sign. -/
def RpcError.IsCode (v : Json) : Prop := ∃ i h, v = .number (.integer i h) ∧ i < 2 ^ 63

/-- An error object: its fields by name, or in order. -/
inductive RpcError.Formed : Json → Prop
  | named {ms : List (String × Json)} {code : Json} {message : String}
      (hcode : ms.lookup "code" = some code) (h : IsCode code)
      (hmessage : ms.lookup "message" = some (.string message)) : Formed (.object ms)
  | listed {code : Json} {message : String} {rest : List Json} (h : IsCode code)
      (hrest : rest.length ≤ 1) : Formed (.array (code :: .string message :: rest))

/-- The members other than its id are those of an answer. -/
structure Response.Formed (ms : List (String × Json)) : Prop where
  tag : ∀ v, ms.lookup "jsonrpc" = some v → ∃ s, v = .string s
  error : ∀ v, ms.lookup "error" = some v → v = .null ∨ RpcError.Formed v

/-! ## Error objects -/

namespace RpcError

theorem isCode_iff {v : Json} : IsCode v ↔ ∃ i, Decoder.signed 64 v = .ok i := by
  constructor
  · rintro ⟨i, h, rfl, hi⟩
    exact ⟨i, Json.Decoder.integer_eq_ok.2 ⟨⟨h, rfl⟩, h.1, hi⟩⟩
  · rintro ⟨i, hi⟩
    obtain ⟨⟨h, rfl⟩, -, hlt⟩ := Json.Decoder.integer_eq_ok.1 hi
    exact ⟨i, h, rfl, hlt⟩

theorem decode_isOk {v : Json} : (∃ e, decode v = .ok e) ↔ Formed v := by
  constructor
  · rintro ⟨e, he⟩
    rcases Json.record_eq_ok.1 he with ⟨ms, rfl, hms⟩ | ⟨items, rfl, hitems⟩
    · simp only [fields, Fields.required, Fields.nullable, Fields.map_ofMembers_eq_ok,
        Fields.pair_ofMembers_eq_ok, Fields.one_ofMembers_eq_ok, Json.Decoder.string_eq_ok,
        reduceCtorEq, and_false, or_false] at hms
      obtain ⟨⟨code, message, data⟩, ⟨⟨c, hc, hcode⟩, ⟨m, hm, rfl⟩, -⟩, -⟩ := hms
      exact .named hc (isCode_iff.2 ⟨_, hcode⟩) hm
    · simp only [fields, Fields.required, Fields.nullable, Fields.map_ofItems_eq_ok,
        Fields.pair_ofItems_eq_ok, Fields.one_ofItems_eq_ok, Json.Decoder.string_eq_ok,
        reduceCtorEq, and_false, or_false] at hitems
      obtain ⟨⟨code, message, data⟩, ⟨_, ⟨c, rfl, hcode⟩, _, ⟨m, rfl, rfl⟩, hdata⟩, -⟩ := hitems
      refine .listed (isCode_iff.2 ⟨_, hcode⟩) ?_
      rcases hdata with ⟨d, rfl, -⟩ | ⟨rfl, -⟩ <;> simp
  · intro h
    cases h with
    | @named ms code message hc hcode hm =>
      obtain ⟨i, hi⟩ := isCode_iff.1 hcode
      obtain ⟨data, hdata⟩ := Fields.nullable_any_ofMembers "data" (ms.lookup ·)
      refine ⟨{ code := i, message, data }, Json.record_object_eq_ok.2 ?_⟩
      refine Fields.map_ofMembers_eq_ok.2 ⟨(i, message, data), ?_, rfl⟩
      refine Fields.pair_ofMembers_eq_ok.2 ⟨?_, Fields.pair_ofMembers_eq_ok.2 ⟨?_, hdata⟩⟩
      · exact Fields.one_ofMembers_eq_ok.2 (.inl ⟨code, hc, hi⟩)
      · exact Fields.one_ofMembers_eq_ok.2 (.inl ⟨_, hm, rfl⟩)
    | @listed code message rest hcode hrest =>
      obtain ⟨i, hi⟩ := isCode_iff.1 hcode
      obtain ⟨data, hdata⟩ := Fields.nullable_any_ofItems "data" _ hrest
      refine ⟨{ code := i, message, data }, Json.record_array_eq_ok.2 ?_⟩
      refine Fields.map_ofItems_eq_ok.2 ⟨(i, message, data), ?_, rfl⟩
      refine Fields.pair_ofItems_eq_ok.2 ⟨.string message :: rest, ?_,
        Fields.pair_ofItems_eq_ok.2 ⟨rest, ?_, hdata _⟩⟩
      · exact Fields.one_ofItems_eq_ok.2 (.inl ⟨code, rfl, hi⟩)
      · exact Fields.one_ofItems_eq_ok.2 (.inl ⟨_, rfl, rfl⟩)

end RpcError

/-! ## Answers -/

namespace Response

variable {ms : List (String × Json)} {r : Response}

/-- What is read from the members of an answer. -/
theorem decode_eq_ok : decode (.object ms) = .ok r ↔
    (ms.lookup "jsonrpc" = some (.string r.jsonrpc) ∨
      ms.lookup "jsonrpc" = none ∧ r.jsonrpc = protocolVersion) ∧
    (ms.lookup "id").bind Json.toNat? = some r.id ∧
    r.result = (ms.lookup "result").getD .null ∧
    (((ms.lookup "error").getD .null = .null ∧ r.error = none) ∨
      ∃ v e, ms.lookup "error" = some v ∧ v ≠ .null ∧ RpcError.decode v = .ok e ∧
        r.error = some e) := by
  have herror : (Fields.nullable "error" RpcError.decode).ofMembers (ms.lookup ·) = .ok r.error ↔
      (((ms.lookup "error").getD .null = .null ∧ r.error = none) ∨
        ∃ v e, ms.lookup "error" = some v ∧ v ≠ .null ∧ RpcError.decode v = .ok e ∧
          r.error = some e) := by
    rw [Fields.nullable, Fields.one_ofMembers_eq_ok]
    cases ms.lookup "error" with
    | none => simp [eq_comm]
    | some v => simp [Json.Decoder.option_eq_ok]
  have hresult : (Fields.optional "result" .null Decoder.any).ofMembers (ms.lookup ·) =
      .ok r.result ↔ r.result = (ms.lookup "result").getD .null := by
    rw [Fields.optional, Fields.one_ofMembers_eq_ok, eq_comm (a := r.result)]
    cases ms.lookup "result" <;> simp
  have hid : (Fields.required "id" (Decoder.unsigned 64)).ofMembers (ms.lookup ·) = .ok r.id ↔
      (ms.lookup "id").bind Json.toNat? = some r.id := by
    rw [Fields.required, Fields.one_ofMembers_eq_ok]
    cases ms.lookup "id" <;> simp
  have htag : (Fields.optional "jsonrpc" protocolVersion Decoder.string).ofMembers (ms.lookup ·) =
      .ok r.jsonrpc ↔ (ms.lookup "jsonrpc" = some (.string r.jsonrpc) ∨
        ms.lookup "jsonrpc" = none ∧ r.jsonrpc = protocolVersion) := by
    rw [Fields.optional, Fields.one_ofMembers_eq_ok, eq_comm (a := r.jsonrpc)]
    simp
  rw [decode, Json.record_object_eq_ok, fields, Fields.map_ofMembers_eq_ok, ← herror, ← hresult,
    ← hid, ← htag]
  constructor
  · rintro ⟨⟨tag, id, result, error⟩, hp, rfl⟩
    simpa only [Fields.pair_ofMembers_eq_ok] using hp
  · intro hp
    exact ⟨(r.jsonrpc, r.id, r.result, r.error),
      by simpa only [Fields.pair_ofMembers_eq_ok] using hp, rfl⟩

/-- A document with an id is an answer if its tag and its error are formed. -/
theorem decode_isOk {id : Nat} (hid : (ms.lookup "id").bind Json.toNat? = some id) :
    (∃ r, decode (.object ms) = .ok r) ↔ Formed ms := by
  constructor
  · rintro ⟨r, hr⟩
    obtain ⟨htag, -, -, herror⟩ := decode_eq_ok.1 hr
    refine ⟨fun v hv => ?_, fun v hv => ?_⟩
    · rcases htag with ht | ⟨ht, -⟩ <;> rw [hv] at ht <;> cases ht
      exact ⟨_, rfl⟩
    · rw [hv] at herror
      rcases herror with ⟨hnull, -⟩ | ⟨w, e, hw, -, he, -⟩
      · exact .inl hnull
      · cases hw
        exact .inr (RpcError.decode_isOk.1 ⟨e, he⟩)
  · intro h
    obtain ⟨tag, htag⟩ : ∃ tag, ms.lookup "jsonrpc" = some (.string tag) ∨
        ms.lookup "jsonrpc" = none ∧ tag = protocolVersion := by
      cases ht : ms.lookup "jsonrpc" with
      | none => exact ⟨_, .inr ⟨rfl, rfl⟩⟩
      | some v =>
        obtain ⟨s, rfl⟩ := h.tag v ht
        exact ⟨s, .inl rfl⟩
    obtain ⟨error, herror⟩ : ∃ error,
        (((ms.lookup "error").getD .null = .null ∧ error = none) ∨
          ∃ v e, ms.lookup "error" = some v ∧ v ≠ .null ∧ RpcError.decode v = .ok e ∧
            error = some e) := by
      cases he : ms.lookup "error" with
      | none => exact ⟨none, .inl ⟨rfl, rfl⟩⟩
      | some v =>
        by_cases hv : v = .null
        · exact ⟨none, .inl ⟨hv, rfl⟩⟩
        · obtain ⟨e, hd⟩ := RpcError.decode_isOk.2 ((h.error v he).resolve_left hv)
          exact ⟨some e, .inr ⟨v, e, rfl, hv, hd, rfl⟩⟩
    exact ⟨⟨tag, id, _, error⟩, decode_eq_ok.2 ⟨htag, hid, rfl, herror⟩⟩

end Response

end ServerLink
