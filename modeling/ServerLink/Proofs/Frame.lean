import ServerLink.Frame
import ServerLink.Proofs.Json.Reader
import ServerLink.Proofs.Message

/-!
# What texts say

`Frame.Says` lists, by the members of a document, what a text can say, and `ofText_eq_ok` shows that
a text is sorted just so. Two classes are known by few members: a document with an id is an answer
or nothing (`says_of_hasId`), and news about jobs are a report or nothing (`says_of_isJobNews`).
-/

namespace ServerLink.Frame

open Json (bind_eq_ok map_eq_ok)

/-- The text is not too large, and an object with these members. -/
structure Reads (text : String) (ms : List (String × Json)) : Prop where
  fits : text.utf8ByteSize ≤ maxFrameSize
  document : Json.read? text = some (.object ms)

/-- There is an id, and it is not null. -/
def HasId (ms : List (String × Json)) : Prop := ∃ v, ms.lookup "id" = some v ∧ v ≠ .null

def method? (ms : List (String × Json)) : Option String :=
  (ms.lookup "method").bind Json.toString?

def params (ms : List (String × Json)) : Json := (ms.lookup "params").getD .null

/-- The collection that parameters name, by its key or as the second of a list. -/
def collection? : Json → Option Json
  | .object ps => ps.lookup "collection"
  | .array (_ :: c :: _) => some c
  | _ => none

/-- The method is the one for jobs, or the collection the one of jobs. -/
def IsJobNews (ms : List (String × Json)) : Prop :=
  method? ms = some Method.jobUpdate ∨
    method? ms = some Method.collectionUpdate ∧
      collection? (params ms) = some (.string jobCollection)

/-- What a text says, which is nothing if it is not of one of these forms. -/
inductive Says (text : String) : Frame → Prop
  | answer {ms : List (String × Json)} {r : Response} (h : Reads text ms)
      (hr : Response.decode (.object ms) = .ok r) : Says text (.answer r)
  | jobUpdate {ms : List (String × Json)} {r : Job.Report} (h : Reads text ms) (hno : ¬ HasId ms)
      (hm : method? ms = some Method.jobUpdate)
      (hr : Job.Report.ofPayload (jobPayload (params ms)) = .ok r) : Says text (.job r)
  | jobStream {ms : List (String × Json)} {p : Collection.Push} {r : Job.Report}
      (h : Reads text ms) (hno : ¬ HasId ms) (hm : method? ms = some Method.collectionUpdate)
      (hp : Collection.Push.decode (params ms) = .ok p) (hc : p.collection = jobCollection)
      (hr : Job.Report.ofPayload p.fields = .ok r) : Says text (.job r)
  | change {ms : List (String × Json)} {p : Collection.Push} {kind : Collection.Kind}
      (h : Reads text ms) (hno : ¬ HasId ms) (hm : method? ms = some Method.collectionUpdate)
      (hp : Collection.Push.decode (params ms) = .ok p) (hc : p.collection ≠ jobCollection)
      (hk : Collection.Kind.ofName? p.message = some kind) : Says text
        (.change { collection := p.collection, kind, id := p.id, fields := p.fields })
  | otherKind {ms : List (String × Json)} {p : Collection.Push}
      (h : Reads text ms) (hno : ¬ HasId ms) (hm : method? ms = some Method.collectionUpdate)
      (hp : Collection.Push.decode (params ms) = .ok p) (hc : p.collection ≠ jobCollection)
      (hk : Collection.Kind.ofName? p.message = none) : Says text (.unrecognized (.object ms))
  | otherMethod {ms : List (String × Json)} (h : Reads text ms) (hno : ¬ HasId ms)
      (hj : method? ms ≠ some Method.jobUpdate)
      (hc : method? ms ≠ some Method.collectionUpdate) : Says text (.unrecognized (.object ms))

variable {text : String} {ms : List (String × Json)} {f : Frame}

/-! ## Ids -/

theorem hasId_eq_true :
    hasId ms = .ok true ↔ ∃ id, (ms.lookup "id").bind Json.toNat? = some id := by
  unfold hasId
  split
  · rename_i hl
    simp [hl]
  · rename_i hl
    simp [hl, Json.toNat?]
  · rename_i v _ hl
    rw [hl, Option.bind_some, ← Option.isSome_iff_exists]
    cases v.toNat?.isSome <;> simp

theorem hasId_eq_false : hasId ms = .ok false ↔ ¬ HasId ms := by
  unfold hasId HasId
  split
  · rename_i hl
    simp [hl]
  · rename_i hl
    simp [hl]
  · rename_i v hnull hl
    rw [hl]
    have hv : ∃ w, some v = some w ∧ w ≠ .null := ⟨v, rfl, fun he => hnull he⟩
    constructor
    · split <;> intro h <;> cases h
    · exact fun hno => absurd hv hno

/-! ## Sorting -/

theorem ofText_of_reads (h : Reads text ms) : ofText text = ofJson (.object ms) := by
  -- a blank text is no document, so it is no loss that such texts are refused first
  have hblank : Text.allBlank text = false := by
    cases hb : Text.allBlank text with
    | false => rfl
    | true =>
      have hd := h.document
      rw [Json.read?_of_allBlank hb] at hd
      cases hd
  rw [ofText, hblank, if_neg (by simp), if_neg (Nat.not_lt.2 h.fits), h.document]

/-- Only an object that is not too large says something. -/
theorem reads_of_ofText (h : ofText text = .ok f) : ∃ ms, Reads text ms := by
  unfold ofText at h
  split at h
  · cases h
  · split at h
    · cases h
    · rename_i hfits
      split at h
      · cases h
      · rename_i v hv
        cases v with
        | object ms => exact ⟨ms, Nat.not_lt.1 hfits, hv⟩
        | _ => cases h

theorem ofJson_of_id {id : Nat} (hid : (ms.lookup "id").bind Json.toNat? = some id) :
    ofJson (.object ms) = match Response.decode (.object ms) with
      | .ok r => .ok (.answer r)
      | .error e => .error (.misshapen e) := by
  rw [ofJson, hasId_eq_true.2 ⟨id, hid⟩]
  rfl

theorem ofJson_of_noId (hno : ¬ HasId ms) : ofJson (.object ms) = ofPush ms := by
  rw [ofJson, hasId_eq_false.2 hno]
  rfl

theorem ofJobPayload_eq_ok {method : String} {payload : Json} :
    ofJobPayload method payload = .ok f ↔
      ∃ r, Job.Report.ofPayload payload = .ok r ∧ f = .job r := by
  unfold ofJobPayload
  cases Job.Report.ofPayload payload <;> simp [eq_comm]

theorem ofPush_eq (ms : List (String × Json)) : ofPush ms =
    match method? ms with
    | none => .ok (.unrecognized (.object ms))
    | some method =>
      if method = Method.jobUpdate then ofJobPayload Method.jobUpdate (jobPayload (params ms))
      else if method = Method.collectionUpdate then ofCollectionPush (.object ms) (params ms)
      else .ok (.unrecognized (.object ms)) := rfl

theorem says_of_push (h : Reads text ms) (hno : ¬ HasId ms) (hf : ofPush ms = .ok f) :
    Says text f := by
  rw [ofPush_eq] at hf
  split at hf
  · rename_i hm
    cases hf
    exact .otherMethod h hno (by simp [hm]) (by simp [hm])
  · rename_i method hm
    split at hf
    · rename_i hj
      obtain ⟨r, hr, rfl⟩ := ofJobPayload_eq_ok.1 hf
      exact .jobUpdate h hno (hj ▸ hm) hr
    · rename_i hj
      split at hf
      · rename_i hc
        unfold ofCollectionPush at hf
        split at hf
        · cases hf
        · rename_i p hp
          split at hf
          · rename_i hjobs
            obtain ⟨r, hr, rfl⟩ := ofJobPayload_eq_ok.1 hf
            exact .jobStream h hno (hc ▸ hm) hp hjobs hr
          · rename_i hjobs
            split at hf
            · rename_i kind hk
              cases hf
              exact .change h hno (hc ▸ hm) hp hjobs hk
            · rename_i hk
              cases hf
              exact .otherKind h hno (hc ▸ hm) hp hjobs hk
      · rename_i hc
        cases hf
        exact .otherMethod h hno (by simp [hm, hj]) (by simp [hm, hc])

/-- A text is sorted by what it says. -/
theorem ofText_eq_ok : ofText text = .ok f ↔ Says text f := by
  constructor
  · intro hf
    obtain ⟨ms, h⟩ := reads_of_ofText hf
    rw [ofText_of_reads h, ofJson, bind_eq_ok] at hf
    obtain ⟨b, hb, hf⟩ := hf
    cases b with
    | true =>
      simp only [↓reduceIte] at hf
      split at hf
      · rename_i r hr
        cases hf
        exact .answer h hr
      · cases hf
    | false => exact says_of_push h (hasId_eq_false.1 hb) hf
  · intro hs
    cases hs with
    | answer h hr =>
      rw [ofText_of_reads h, ofJson_of_id (Response.decode_eq_ok.1 hr).2.1, hr]
    | jobUpdate h hno hm hr =>
      rw [ofText_of_reads h, ofJson_of_noId hno, ofPush_eq, hm]
      exact ofJobPayload_eq_ok.2 ⟨_, hr, rfl⟩
    | jobStream h hno hm hp hc hr =>
      rw [ofText_of_reads h, ofJson_of_noId hno, ofPush_eq, hm]
      simp only [ofCollectionPush, hp, hc, ↓reduceIte]
      exact ofJobPayload_eq_ok.2 ⟨_, hr, rfl⟩
    | change h hno hm hp hc hk =>
      rw [ofText_of_reads h, ofJson_of_noId hno, ofPush_eq, hm]
      simp only [ofCollectionPush, hp, hc, hk, ↓reduceIte]
      rfl
    | otherKind h hno hm hp hc hk =>
      rw [ofText_of_reads h, ofJson_of_noId hno, ofPush_eq, hm]
      simp only [ofCollectionPush, hp, hc, hk, ↓reduceIte]
      rfl
    | otherMethod h hno hj hc =>
      rw [ofText_of_reads h, ofJson_of_noId hno, ofPush_eq]
      split
      · rfl
      · rename_i method hm
        have hj' : method ≠ Method.jobUpdate := fun he => hj (he ▸ hm)
        have hc' : method ≠ Method.collectionUpdate := fun he => hc (he ▸ hm)
        rw [if_neg hj', if_neg hc']

theorem Says.unique {g : Frame} (hf : Says text f) (hg : Says text g) : f = g := by
  have h := ofText_eq_ok.2 hf
  rw [ofText_eq_ok.2 hg] at h
  exact (Except.ok.inj h).symm

/-! ## Classes of documents -/

theorem Reads.unique {ms' : List (String × Json)} (h : Reads text ms')
    (hd : Json.read? text = some (.object ms)) : ms' = ms := by
  have he := h.document
  rw [hd] at he
  exact (Json.object.inj (Option.some.inj he)).symm

/-- A document with an id says an answer, if anything. -/
theorem says_of_hasId (hd : Json.read? text = some (.object ms)) (hid : HasId ms)
    (hs : Says text f) : ∃ r, f = .answer r ∧ Response.decode (.object ms) = .ok r := by
  cases hs with
  | answer h hr => exact ⟨_, rfl, h.unique hd ▸ hr⟩
  | jobUpdate h hno | jobStream h hno | change h hno | otherKind h hno | otherMethod h hno =>
    exact absurd (h.unique hd ▸ hid) hno

/-- A push names the collection that it is about. -/
theorem collection?_of_decode {v : Json} {p : Collection.Push}
    (h : Collection.Push.decode v = .ok p) : collection? v = some (.string p.collection) := by
  rcases Json.record_eq_ok.1 h with ⟨ms, rfl, hms⟩ | ⟨items, rfl, hitems⟩
  · simp only [Collection.Push.layout, Json.Fields.required, Json.Fields.map_ofMembers_eq_ok,
      Json.Fields.pair_ofMembers_eq_ok, Json.Fields.one_ofMembers_eq_ok,
      Json.Decoder.string_eq_ok, reduceCtorEq, and_false, or_false] at hms
    obtain ⟨⟨message, collection, id, fields⟩, ⟨-, ⟨c, hc, rfl⟩, -⟩, rfl⟩ := hms
    exact hc
  · simp only [Collection.Push.layout, Json.Fields.required, Json.Fields.map_ofItems_eq_ok,
      Json.Fields.pair_ofItems_eq_ok, Json.Fields.one_ofItems_eq_ok,
      Json.Decoder.string_eq_ok, reduceCtorEq, and_false, or_false] at hitems
    obtain ⟨⟨message, collection, id, fields⟩, ⟨_, ⟨m, rfl, -⟩, _, ⟨c, rfl, rfl⟩, -⟩, rfl⟩ := hitems
    rfl

/-- News about jobs are for those who wait for them, whichever collections are subscribed. -/
theorem says_of_isJobNews (hd : Json.read? text = some (.object ms)) (hj : IsJobNews ms)
    (hs : Says text f) (c : Collection.Change) : f ≠ .change c := by
  rintro rfl
  cases hs with
  | @change ms' p kind h hno hm hp hc hk =>
    obtain rfl := h.unique hd
    rcases hj with hj | ⟨-, hj⟩
    · rw [hm] at hj
      exact absurd hj (by decide)
    · rw [collection?_of_decode hp] at hj
      exact hc (Json.string.inj (Option.some.inj hj))

end ServerLink.Frame
