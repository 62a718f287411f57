import ServerLink.Proofs.Link.Frames

/-!
# Answers that reach their calls

A document that has the id of a pending call reaches the call just if it is formed like an answer
(`answers_reach_their_calls`). If its tag is no text, or its error no error object, it is dropped,
and the call goes on waiting (`answer_with_null_tag_is_dropped`).
-/

namespace ServerLink.Link

/-- The call has ended with this outcome, which is in its slot. -/
structure HasEnded (l : Link) (id : Nat) (o : Outcome) : Prop where
  slot : l.slots.lookup id = some (.filled o)
  ended : ¬ l.calls.Outstanding id

/-- What an answer to a pending call comes to. -/
inductive Answered (l m : Link) (r : Response) : Call.Kind → Prop
  /-- The server reports an error. -/
  | failed {kind : Call.Kind} {e : RpcError} (hr : r.error = some e)
      (hm : m.HasEnded r.id (.error (.rpc e))) : Answered l m r kind
  | returned (hr : r.error = none) (hm : m.HasEnded r.id (.ok r.result)) : Answered l m r .plain
  /-- The result of a job call names no job. -/
  | unnamed (hr : r.error = none) (hj : Job.id? r.result = none)
      (hm : m.HasEnded r.id (.error (.protocol ("expected a job id, got " ++ r.result.render)))) :
      Answered l m r .job
  /-- The job has ended before. -/
  | late {job : Nat} {e : Job.Report} (hr : r.error = none) (hj : Job.id? r.result = some job)
      (he : l.calls.jobs.early.find? (·.id = job) = some e) (hm : m.HasEnded r.id e.outcome) :
      Answered l m r .job
  /-- The call waits for its job. -/
  | waits {job : Nat} (hr : r.error = none) (hj : Job.id? r.result = some job)
      (he : l.calls.jobs.early.find? (·.id = job) = none)
      (hm : m.calls.jobs.waiting.lookup job = some r.id) : Answered l m r .job

variable {l : Link} {text : String} {ms : List (String × Json)} {r : Response} {id : Nat}
  {kind : Call.Kind}

/-- An answer that ends its call fills the slot. -/
theorem hasEnded_answer (h : l.Inv) (hp : l.calls.pending.lookup r.id = some kind) {o : Outcome}
    (ho : (l.calls.step (.answer r)).2 = [.filled r.id o]) :
    (l.perform (.answer r)).HasEnded r.id o := by
  have hends : endsOf r.id (l.calls.step (.answer r)).2 = [.filled o] := by
    rw [ho, endsOf_filled, if_pos rfl]
  refine ⟨?_, ?_⟩
  · rw [slots_answer, hends]
    rfl
  · have hlt := Calls.outstanding_lt h.calls (Calls.outstanding_of_pending hp)
    exact Calls.not_outstanding_of_ended h.calls hlt hends

/-- An answer to a pending call is not dropped. -/
theorem answered_perform (h : l.Inv) (hp : l.calls.pending.lookup r.id = some kind) :
    Answered l (l.perform (.answer r)) r kind := by
  rcases Calls.step_answer l.calls r with ⟨hnone, -⟩ | ⟨kind', hk, hno, hs⟩ | ⟨job, hst, hs⟩
  · rw [hp] at hnone
    cases hnone
  · obtain rfl : kind = kind' := Option.some.inj (hp.symm.trans hk)
    have hm := hasEnded_answer h hp (by rw [hs])
    cases he : r.error with
    | some e =>
      have ho : r.outcome = .error e := by rw [Response.outcome, he]
      exact .failed he (by simpa only [Calls.direct, ho] using hm)
    | none =>
      have ho : r.outcome = .ok r.result := by rw [Response.outcome, he]
      cases kind with
      | plain => exact .returned he (by simpa only [Calls.direct, ho] using hm)
      | job =>
        have hj : Job.id? r.result = none :=
          Option.eq_none_iff_forall_ne_some.2 fun job hj => hno job ⟨hp, _, ho, hj⟩
        exact .unnamed he hj (by simpa only [Calls.direct, ho] using hm)
  · obtain ⟨hk, v, ho, hj⟩ := hst
    obtain rfl : kind = .job := Option.some.inj (hp.symm.trans hk)
    obtain ⟨he, rfl⟩ : r.error = none ∧ r.result = v := by
      unfold Response.outcome at ho
      split at ho
      · cases ho
      · rename_i he
        exact ⟨he, Except.ok.inj ho⟩
    rcases Job.Watch.attach_cases l.calls.jobs job r.id with ⟨e, hearly, ha⟩ | ⟨hearly, ha⟩
    · exact .late he hj hearly (hasEnded_answer h hp (by rw [hs, ha]))
    · refine .waits he hj hearly ?_
      show (l.calls.step (.answer r)).1.jobs.waiting.lookup job = _
      rw [hs, ha]
      exact Table.lookup_insert_self

/-- Nothing is pending any more under the id of an answer. -/
theorem not_pending_answer (l : Link) (r : Response) :
    (l.perform (.answer r)).calls.pending.lookup r.id = none := by
  show (l.calls.step (.answer r)).1.pending.lookup r.id = none
  rcases Calls.step_answer l.calls r with ⟨hnone, hs⟩ | ⟨_, -, -, hs⟩ | ⟨_, -, hs⟩ <;> rw [hs]
  · exact hnone
  · exact Table.lookup_erase_self
  · exact Table.lookup_erase_self

/-- **Which answers reach their calls.** A document with the id of a pending call takes the call out
of those that are pending just if it is formed like an answer: its tag is a text if there is one,
and its error is null, an error object or left out. Then it ends the call with its error or its
result, or attaches it to the job that the result names. Otherwise it changes nothing. -/
theorem answers_reach_their_calls (h : l.Reachable) (hd : Frame.Reads text ms)
    (hid : (ms.lookup "id").bind Json.toNat? = some id)
    (hp : l.calls.pending.lookup id = some kind) :
    ((l.dispatch text).calls.pending.lookup id = none ↔ Response.Formed ms) ∧
    (Response.Formed ms → ∃ r : Response, r.id = id ∧
      r.result = (ms.lookup "result").getD .null ∧
      ((ms.lookup "error").getD .null = .null ∧ r.error = none ∨
        ∃ v e, ms.lookup "error" = some v ∧ v ≠ .null ∧ RpcError.decode v = .ok e ∧
          r.error = some e) ∧
      Answered l (l.dispatch text) r kind) ∧
    (¬ Response.Formed ms → l.dispatch text = l) := by
  obtain ⟨v, hv, hn⟩ := Option.bind_eq_some_iff.1 hid
  have hasId : Frame.HasId ms := ⟨v, hv, by rintro rfl; cases hn⟩
  -- with an id the document is an answer or is dropped, and whether it is formed decides which
  rcases dispatch_of_hasId l hd.document hasId with ⟨r, -, hr, he⟩ | ⟨hno, he⟩ <;> rw [he]
  · have hformed : Response.Formed ms := (Response.decode_isOk hid).1 ⟨r, hr⟩
    obtain ⟨-, hown, hresult, herror⟩ := Response.decode_eq_ok.1 hr
    obtain rfl : r.id = id := Option.some.inj (hown.symm.trans hid)
    exact ⟨⟨fun _ => hformed, fun _ => not_pending_answer l r⟩,
      fun _ => ⟨r, rfl, hresult, herror, answered_perform h.inv hp⟩,
      fun hnot => absurd hformed hnot⟩
  · have hnot : ¬ Response.Formed ms := by
      intro hformed
      obtain ⟨r, hr⟩ := (Response.decode_isOk hid).2 hformed
      exact hno _ (.answer hd hr)
    refine ⟨⟨fun hgone => ?_, fun hf => absurd hf hnot⟩, fun hf => absurd hf hnot, fun _ => rfl⟩
    rw [hp] at hgone
    cases hgone

/-! ## A tag that is no text -/

/-- A caller asks for the version. -/
def asking : List Event := [.start 1 (.call "system.version" .null none)]

def tagged : String := "\x7b\"id\":1,\"jsonrpc\":\"1.0\",\"result\":5\x7d"

def nullTagged : String := "\x7b\"id\":1,\"jsonrpc\":null,\"result\":5\x7d"

theorem reads_tagged : Frame.Reads tagged
    [("id", .ofNat 1), ("jsonrpc", .string "1.0"), ("result", .ofNat 5)] :=
  ⟨by decide +kernel, by rw [Json.read?, Json.tokens?_eq]; cbv⟩

theorem reads_nullTagged : Frame.Reads nullTagged
    [("id", .ofNat 1), ("jsonrpc", .null), ("result", .ofNat 5)] :=
  ⟨by decide +kernel, by rw [Json.read?, Json.tokens?_eq]; cbv⟩

theorem pending_asking : ((ofSettings {}).run asking).calls.pending = [(1, .plain)] := by cbv

/-- The call waits on after a document that has its id and a result. -/
theorem answer_with_null_tag_is_dropped :
    ((ofSettings {}).run asking).dispatch nullTagged = (ofSettings {}).run asking ∧
    ¬ ∀ l : Link, l.Reachable → ∀ text ms id kind, Frame.Reads text ms →
      (ms.lookup "id").bind Json.toNat? = some id → l.calls.pending.lookup id = some kind →
      (l.dispatch text).calls.pending.lookup id = none := by
  have hsilent : ∀ f, ¬ Frame.Says nullTagged f := by
    intro f hs
    obtain ⟨r, -, hr⟩ := Frame.says_of_hasId reads_nullTagged.document
      ⟨_, rfl, by simp [Json.ofNat]⟩ hs
    cases hr
  have hsame := dispatch_of_silent ((ofSettings {}).run asking) hsilent
  refine ⟨hsame, fun hall => ?_⟩
  have hgone := hall _ ⟨{}, asking, rfl⟩ nullTagged _ 1 .plain reads_nullTagged rfl
    (by rw [pending_asking]; rfl)
  rw [hsame, pending_asking] at hgone
  cases hgone

/-- A tag of another version is no reason to drop an answer. -/
theorem answer_with_other_tag_returns :
    Response.Formed [("id", .ofNat 1), ("jsonrpc", .string "1.0"), ("result", .ofNat 5)] ∧
    (((ofSettings {}).run asking).dispatch tagged).HasEnded 1 (.ok (.ofNat 5)) := by
  have hformed : Response.Formed
      [("id", .ofNat 1), ("jsonrpc", .string "1.0"), ("result", .ofNat 5)] :=
    ⟨fun v hv => by cases hv; exact ⟨_, rfl⟩, fun v hv => by cases hv⟩
  have hreachable : ((ofSettings {}).run asking).Reachable := ⟨{}, asking, rfl⟩
  obtain ⟨r, hid, hresult, herror, ha⟩ := (answers_reach_their_calls hreachable reads_tagged rfl
    (by rw [pending_asking]; rfl : _ = some Call.Kind.plain)).2.1 hformed
  refine ⟨hformed, ?_⟩
  cases ha with
  | returned hr hm =>
    rw [hid, hresult] at hm
    exact hm
  | failed hr hm =>
    rcases herror with ⟨-, he⟩ | ⟨v, e, hv, -⟩
    · rw [hr] at he
      cases he
    · cases hv

end ServerLink.Link
