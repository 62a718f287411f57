import Mathlib
import ServerLink.Proofs.Frame
import ServerLink.Proofs.Link.Steps
import ServerLink.Proofs.Subscription.History

/-!
# What a frame touches

A frame is for the calls or for the subscriptions, never for both. One with an id is at most the
answer to the call with that id; one with news about jobs never comes to a subscriber; a change
comes once to each subscriber of its collection (`frames_touch_what_they_are_for`).
-/

namespace ServerLink.Link

open ServerLink.Frame (Says HasId IsJobNews)

/-- What a frame brings. -/
def Op.ofFrame? : Frame → Option Op
  | .answer r => some (.answer r)
  | .job r => some (.report r)
  | .change c => some (.deliver c.collection c.payload)
  | .unrecognized _ => none

/-- Nothing has changed about this call. -/
structure Unaffected (l m : Link) (id : Nat) : Prop where
  pending : m.calls.pending.lookup id = l.calls.pending.lookup id
  waiting : ∀ job, m.calls.jobs.waiting.lookup job = some id ↔
    l.calls.jobs.waiting.lookup job = some id
  slot : m.slots.lookup id = l.slots.lookup id

variable {lost : Nat → Prop} {l m : Link} {text : String} {f : Frame} {r : Response} {id : Nat}

/-! ## Subscriptions of a connection -/

theorem fanout_perform_run (l : Link) (o : Op) : ∃ es, (l.perform o).fanout = l.fanout.run es := by
  rw [fanout_perform]
  split
  · split
    · exact ⟨[], rfl⟩
    · exact ⟨[.closeAll], rfl⟩
  · exact ⟨[_], rfl⟩
  · exact ⟨[], rfl⟩

theorem Moves.fanout (h : Moves lost l m) : ∃ es, m.fanout = l.fanout.run es := by
  induction h with
  | refl => exact ⟨[], rfl⟩
  | tail _ hm ih =>
    obtain ⟨es, hes⟩ := ih
    cases hm with
    | op o _ =>
      obtain ⟨es', hes'⟩ := fanout_perform_run _ o
      exact ⟨es ++ es', by rw [hes', hes, Fanout.run_append]⟩
    | _ => exact ⟨es, hes⟩

/-- What happens on a connection is a run for its subscriptions. -/
theorem Reachable.fanout (h : l.Reachable) : ∃ es, l.fanout = Fanout.run {} es := by
  obtain ⟨settings, events, rfl⟩ := h
  suffices ∀ (l : Link), l.Inv → ∃ es, (l.run events).fanout = l.fanout.run es from
    this _ (.ofSettings settings)
  intro l hl
  induction events generalizing l with
  | nil => exact ⟨[], rfl⟩
  | cons e events ih =>
    obtain ⟨es, hes⟩ : ∃ es, (l.step e).fanout = l.fanout.run es := by
      rcases step_moves hl e with hm | ⟨i, text, o, -, -, -, -, hs⟩
      · exact hm.fanout
      · rw [hs]
        exact fanout_perform_run l o
    obtain ⟨es', hes'⟩ := ih (l.step e) (hl.event e)
    exact ⟨es ++ es', by rw [Fanout.run_append, ← hes]; exact hes'⟩

/-! ## What a frame brings -/

theorem ofText?_of_said (hs : Says text f) : Op.ofText? text = Op.ofFrame? f := by
  rw [Op.ofText?, Frame.ofText_eq_ok.2 hs]
  cases f <;> rfl

theorem dispatch_of_said (l : Link) (hs : Says text f) :
    l.dispatch text = ((Op.ofFrame? f).map l.perform).getD l := by
  rw [dispatch_eq, ofText?_of_said hs]

/-- A text that says nothing changes nothing. -/
theorem dispatch_of_silent (l : Link) (hs : ∀ f, ¬ Says text f) : l.dispatch text = l := by
  rw [dispatch_eq, Op.ofText?]
  cases hf : Frame.ofText text with
  | error e => rfl
  | ok f => exact absurd (Frame.ofText_eq_ok.1 hf) (hs f)

theorem step_receive (hr : l.reader = .running) (hs : Says text f) :
    l.step (.receive (.text text)) = ((Op.ofFrame? f).map l.perform).getD l := by
  rw [← dispatch_of_said l hs]
  simp only [step, hr, ↓reduceIte, receive]

theorem dispatch_cases (l : Link) (text : String) :
    (∃ f, Says text f ∧ l.dispatch text = ((Op.ofFrame? f).map l.perform).getD l) ∨
      (∀ f, ¬ Says text f) ∧ l.dispatch text = l := by
  by_cases hs : ∃ f, Says text f
  · obtain ⟨f, hs⟩ := hs
    exact .inl ⟨f, hs, dispatch_of_said l hs⟩
  · exact .inr ⟨not_exists.1 hs, dispatch_of_silent l (not_exists.1 hs)⟩

/-- A document with an id says an answer, just one, or it says nothing. -/
theorem dispatch_of_hasId (l : Link) {ms : List (String × Json)}
    (hd : Json.read? text = some (.object ms)) (hid : HasId ms) :
    (∃ r, (∀ r', Says text (.answer r') ↔ r' = r) ∧
      Response.decode (.object ms) = .ok r ∧ l.dispatch text = l.perform (.answer r)) ∨
    (∀ f, ¬ Says text f) ∧ l.dispatch text = l := by
  rcases dispatch_cases l text with ⟨f, hs, he⟩ | hsilent
  · obtain ⟨r, rfl, hr⟩ := Frame.says_of_hasId hd hid hs
    refine .inl ⟨r, fun r' => ⟨fun hs' => ?_, fun he => he ▸ hs⟩, hr, he⟩
    cases hs.unique hs'
    rfl
  · exact .inr hsilent

/-- What a frame brings is for the calls, or for the subscriptions. -/
theorem perform_ofFrame (l : Link) {o : Op} (ho : Op.ofFrame? f = some o) :
    l.perform o = { l with calls := (l.perform o).calls, slots := (l.perform o).slots } ∨
      l.perform o = { l with fanout := (l.perform o).fanout } := by
  cases f with
  | answer r => cases ho; exact .inl rfl
  | job r => cases ho; exact .inl rfl
  | change c => cases ho; exact .inr rfl
  | unrecognized v => cases ho

/-! ## Answers -/

/-- The answer to a job call takes the report out that is kept for its job, and ends the call with
it. -/
theorem early_of_kept {job : Nat} {e : Job.Report} (hst : l.calls.Starts r job)
    (he : l.calls.jobs.early.find? (·.id = job) = some e) :
    (l.perform (.answer r)).calls.jobs.early = l.calls.jobs.early.eraseP (·.id = job) ∧
      (l.perform (.answer r)).slots.lookup r.id = some (.filled e.outcome) := by
  have hs := Calls.step_starts hst
  rcases Job.Watch.attach_cases l.calls.jobs job r.id with ⟨e', he', ha⟩ | ⟨hnone, -⟩
  · obtain rfl : e = e' := Option.some.inj (he.symm.trans he')
    constructor
    · show (l.calls.step (.answer r)).1.jobs.early = _
      rw [hs, ha]
    · rw [slots_answer, hs, ha, endsOf_filled, if_pos rfl]
      rfl
  · rw [hnone] at he
    cases he

/-- An answer that names no job of a report that is kept leaves the reports as they are. -/
theorem early_of_not_kept (hnone : ∀ job, l.calls.Starts r job →
    l.calls.jobs.early.find? (·.id = job) = none) :
    (l.perform (.answer r)).calls.jobs.early = l.calls.jobs.early := by
  show (l.calls.step (.answer r)).1.jobs.early = _
  rcases Calls.step_answer l.calls r with ⟨-, hs⟩ | ⟨kind, -, -, hs⟩ | ⟨job, hst, hs⟩
  · rw [hs]
  · rw [hs]
    rfl
  · rcases Job.Watch.attach_cases l.calls.jobs job r.id with ⟨e, he, -⟩ | ⟨-, ha⟩
    · rw [hnone job hst] at he
      cases he
    · rw [hs, ha]

/-- An answer affects no call but its own, unless it displaces one. -/
theorem unaffected_answer (l : Link) (hne : id ≠ r.id) (hd : ¬ l.calls.Displaces (.answer r) id) :
    Unaffected l (l.perform (.answer r)) id := by
  have hcalls : (l.perform (.answer r)).calls = (l.calls.step (.answer r)).1 := rfl
  have hslots : endsOf id (l.calls.step (.answer r)).2 = [] →
      (l.perform (.answer r)).slots.lookup id = l.slots.lookup id := by
    intro hends
    rw [slots_answer, hends]
    rfl
  rcases Calls.step_answer l.calls r with ⟨-, hs⟩ | ⟨kind, -, -, hs⟩ | ⟨job, hst, hs⟩
  · refine ⟨by rw [hcalls, hs], fun job => by rw [hcalls, hs], hslots (by rw [hs]; rfl)⟩
  · refine ⟨?_, fun job => by rw [hcalls, hs]; rfl, hslots ?_⟩
    · rw [hcalls, hs]
      exact Table.lookup_erase_ne hne
    · rw [hs, endsOf_filled, if_neg (Ne.symm hne)]
  · have hpending : (l.perform (.answer r)).calls.pending.lookup id =
        l.calls.pending.lookup id := by
      rw [hcalls, hs]
      exact Table.lookup_erase_ne hne
    rcases Job.Watch.attach_cases l.calls.jobs job r.id with ⟨e, -, ha⟩ | ⟨-, ha⟩
    · refine ⟨hpending, fun job' => by rw [hcalls, hs, ha], hslots ?_⟩
      rw [hs, ha, endsOf_filled, if_neg (Ne.symm hne)]
    · have hold : l.calls.jobs.waiting.lookup job ≠ some id := fun hw =>
        hd ⟨r, job, rfl, hst, hw⟩
      refine ⟨hpending, fun job' => ?_, hslots ?_⟩
      · rw [hcalls, hs, ha]
        -- under `job` there is now `r.id`, and before there was not `id`, or it would be displaced
        by_cases hj : job' = job
        · subst hj
          show (Table.insert l.calls.jobs.waiting job' r.id).lookup job' = some id ↔ _
          rw [Table.lookup_insert_self]
          exact ⟨fun he => absurd (Option.some.inj he).symm hne, fun he => absurd he hold⟩
        · show (Table.insert l.calls.jobs.waiting job r.id).lookup job' = some id ↔ _
          rw [Table.lookup_insert_ne hj]
      · rw [hs, ha]
        cases hw : l.calls.jobs.waiting.lookup job with
        | none => rfl
        | some old =>
          have hno : old ≠ id := fun he => hold (by rw [hw, he])
          show endsOf id [.abandoned old] = []
          rw [endsOf_abandoned, if_neg hno]

/-! ## Changes -/

/-- A change comes once to each subscription to its collection that is open, and to no other. -/
theorem lookup_deliver (es : List Fanout.Event) (c : String) (v : Json) (k : Nat) :
    ((Fanout.run {} es).deliver c v).mailboxes.lookup k =
      ((Fanout.run {} es).mailboxes.lookup k).map fun b =>
        if ⟨c, k⟩ ∈ Fanout.stillOpen es then b.push v else b := by
  rw [Fanout.deliver, Fanout.lookup_updateMailboxes]
  simp only [Fanout.mem_stillOpen]

/-- **A frame touches what it is for.** A text changes the calls and their slots, or the mailboxes,
never both. If it has an id, it changes no mailbox, and it keeps the reports that are kept, except
that the answer to a job call takes out the earliest one of the job that it names, and ends the call
with it; and it affects no other call than that with its id, unless it displaces that one. News
about jobs change no mailbox. A change of another collection is put once into the mailbox of each
subscription to the collection that is open, and nothing else changes. A text that is neither an
answer nor one of these changes nothing. -/
theorem frames_touch_what_they_are_for (h : l.Reachable) (text : String) :
    let m := l.dispatch text
    (m = { l with calls := m.calls, slots := m.slots } ∨ m = { l with fanout := m.fanout }) ∧
    (∀ ms, Json.read? text = some (.object ms) → HasId ms →
      m.fanout = l.fanout ∧
      (∀ r job e, Says text (.answer r) → l.calls.Starts r job →
        l.calls.jobs.early.find? (·.id = job) = some e →
        m.calls.jobs.early = l.calls.jobs.early.eraseP (·.id = job) ∧
        m.slots.lookup r.id = some (.filled e.outcome)) ∧
      ((∀ r job, Says text (.answer r) → l.calls.Starts r job →
        l.calls.jobs.early.find? (·.id = job) = none) →
        m.calls.jobs.early = l.calls.jobs.early) ∧
      ∀ id, (ms.lookup "id").bind Json.toNat? ≠ some id →
        (∀ r, Says text (.answer r) → ¬ l.calls.Displaces (.answer r) id) → Unaffected l m id) ∧
    (∀ ms, Json.read? text = some (.object ms) → IsJobNews ms → m.fanout = l.fanout) ∧
    (∀ c, Says text (.change c) → m = { l with fanout := l.fanout.deliver c.collection c.payload } ∧
      ∃ es, l.fanout = Fanout.run {} es ∧ ∀ k, m.fanout.mailboxes.lookup k =
        (l.fanout.mailboxes.lookup k).map fun b =>
          if ⟨c.collection, k⟩ ∈ Fanout.stillOpen es then b.push c.payload else b) ∧
    ((∀ f, Says text f → ∃ v, f = .unrecognized v) → m = l) := by
  intro m
  have hm : m = l.dispatch text := rfl
  refine ⟨?_, fun ms hd hid => ?_, fun ms hd hj => ?_, fun c hs => ?_, fun hno => ?_⟩
  · rcases dispatch_cases l text with ⟨f, -, he⟩ | ⟨-, he⟩ <;> rw [hm, he]
    · cases ho : Op.ofFrame? f with
      | none => exact .inl rfl
      | some o => exact perform_ofFrame l ho
    · exact .inl rfl
  · rcases dispatch_of_hasId l hd hid with ⟨r, hr, hdecode, he⟩ | ⟨hno, he⟩ <;> rw [hm, he]
    · have hown := (Response.decode_eq_ok.1 hdecode).2.1
      refine ⟨rfl, fun r' job e hs hst hkept => ?_, fun hnone => ?_, fun id hne hd => ?_⟩
      · obtain rfl := (hr r').1 hs
        exact early_of_kept hst hkept
      · exact early_of_not_kept fun job => hnone r job ((hr r).2 rfl)
      · exact unaffected_answer l (fun he => hne (by rw [hown, he])) (hd r ((hr r).2 rfl))
    · exact ⟨rfl, fun r _ _ hs => absurd hs (hno _), fun _ => rfl,
        fun id _ _ => ⟨rfl, fun _ => .rfl, rfl⟩⟩
  · rcases dispatch_cases l text with ⟨f, hs, he⟩ | ⟨-, he⟩ <;> rw [hm, he]
    cases f with
    | change c => exact absurd rfl (Frame.says_of_isJobNews hd hj hs c)
    | _ => rfl
  · obtain ⟨es, hes⟩ := h.fanout
    have hm' : m = { l with fanout := l.fanout.deliver c.collection c.payload } :=
      dispatch_of_said l hs
    exact ⟨hm', es, hes, fun k => by rw [hm', hes]; exact lookup_deliver es _ _ k⟩
  · rcases dispatch_cases l text with ⟨f, hs, he⟩ | ⟨-, he⟩ <;> rw [hm, he]
    obtain ⟨v, rfl⟩ := hno f hs
    rfl

/-! ## A job that ends before its call is answered -/

def accepted : String := "\x7b\"id\":1,\"result\":true\x7d"

def scrubbed : String :=
  "\x7b\"method\":\"job_update\",\"params\":\x7b\"id\":7,\"state\":\"SUCCESS\"\x7d\x7d"

def scrubbing : String := "\x7b\"id\":2,\"result\":7\x7d"

/-- A caller asks for job reports, which the server accepts, and starts a job, which the server
reports on before it answers the call. -/
def hasty : List Event :=
  [.start 1 (.callAndWait "scrub" .null none), .resume 1 .written false, .receive (.text accepted),
    .resume 1 .nothing false, .resume 1 .written false, .receive (.text scrubbed)]

def scrubReport : Job.Report :=
  { id := 7, state := .success,
    payload := .object [("id", .ofNat 7), ("state", .string "SUCCESS")] }

theorem reads_accepted : Frame.Reads accepted [("id", .ofNat 1), ("result", .bool true)] :=
  ⟨by decide, by rw [Json.read?, Json.tokens?_eq]; cbv⟩

theorem reads_scrubbed : Frame.Reads scrubbed [("method", .string "job_update"),
    ("params", .object [("id", .ofNat 7), ("state", .string "SUCCESS")])] :=
  ⟨by decide +kernel, by rw [Json.read?, Json.tokens?_eq]; cbv⟩

theorem reads_scrubbing : Frame.Reads scrubbing [("id", .ofNat 2), ("result", .ofNat 7)] :=
  ⟨by decide, by rw [Json.read?, Json.tokens?_eq]; cbv⟩

theorem says_scrubbed : Says scrubbed (.job scrubReport) :=
  .jobUpdate reads_scrubbed (by rintro ⟨v, hv, -⟩; cases hv) rfl (by decide +kernel)

theorem says_scrubbing : Says scrubbing (.answer { id := 2, result := .ofNat 7 }) :=
  .answer reads_scrubbing rfl

theorem calls_hasty : ((ofSettings {}).run hasty).calls =
    { nextId := 3, pending := [(2, .job)], jobs := { early := [scrubReport] } } := by
  have haccepted : (ofSettings {}).run (hasty.take 3) = ((ofSettings {}).run (hasty.take 2)).perform
      (.answer { id := 1, result := .bool true }) :=
    step_receive (by cbv) (.answer reads_accepted rfl)
  obtain ⟨l, hl, hstarted⟩ :
      ∃ l, l = ((ofSettings {}).run (hasty.take 3)).run ((hasty.drop 3).take 2) ∧
        (l.reader, l.calls) = (.running, { nextId := 3, pending := [(2, .job)] }) := by
    rw [haccepted]
    exact ⟨_, rfl, by cbv⟩
  obtain ⟨hreader, hcalls⟩ := Prod.mk.inj hstarted
  have hscrubbed : (ofSettings {}).run hasty = l.perform (.report scrubReport) := by
    rw [hl] at hreader ⊢
    exact step_receive hreader says_scrubbed
  rw [hscrubbed]
  show (l.calls.step (.report scrubReport)).1 = _
  rw [hcalls]
  rfl

/-- A frame with an id can touch the reports that are kept. -/
theorem answer_takes_kept_report :
    ((ofSettings {}).run hasty).calls.jobs.early = [scrubReport] ∧
    (((ofSettings {}).run hasty).dispatch scrubbing).calls.jobs.early = [] ∧
    ¬ ∀ l : Link, l.Reachable → ∀ text ms, Json.read? text = some (.object ms) → HasId ms →
      (l.dispatch text).calls.jobs.early = l.calls.jobs.early := by
  have hkept : ((ofSettings {}).run hasty).calls.jobs.early = [scrubReport] := by rw [calls_hasty]
  have htaken : (((ofSettings {}).run hasty).dispatch scrubbing).calls.jobs.early = [] := by
    rw [dispatch_of_said _ says_scrubbing]
    show (((ofSettings {}).run hasty).calls.step _).1.jobs.early = []
    rw [calls_hasty]
    rfl
  refine ⟨hkept, htaken, fun hall => ?_⟩
  have hsame := hall _ ⟨{}, hasty, rfl⟩ scrubbing _ reads_scrubbing.document
    ⟨_, rfl, by simp [Json.ofNat]⟩
  rw [hkept, htaken] at hsame
  cases hsame

/-- A subscriber of a collection, and a change of it. -/
def watching : List Event := [.start 1 (.subscribe "pool" .null)]

def poolChanged : String :=
  "\x7b\"method\":\"collection_update\",\"params\":[\"changed\",\"pool\",1,5]\x7d"

theorem reads_poolChanged : Frame.Reads poolChanged [("method", .string "collection_update"),
    ("params", .array [.string "changed", .string "pool", .ofNat 1, .ofNat 5])] :=
  ⟨by decide +kernel, by rw [Json.read?, Json.tokens?_eq]; cbv⟩

theorem says_poolChanged : Says poolChanged (.change
    { collection := "pool", kind := .changed, id := some (.ofNat 1), fields := .ofNat 5 }) :=
  .change reads_poolChanged (by rintro ⟨v, hv, -⟩; cases hv) rfl rfl (by decide) rfl

theorem early_answer_and_pool_change :
    ((ofSettings {}).run hasty).Reachable ∧
    (((ofSettings {}).run hasty).dispatch scrubbing).slots.lookup 2 = some (.filled (.ok .null)) ∧
    ((ofSettings {}).run watching).Reachable ∧
    ∃ b, (((ofSettings {}).run watching).dispatch poolChanged).fanout.mailboxes.lookup 1 = some b ∧
      b.values = [.ofNat 5] := by
  have hhasty : ((ofSettings {}).run hasty).Reachable := ⟨{}, hasty, rfl⟩
  have hwatching : ((ofSettings {}).run watching).Reachable := ⟨{}, watching, rfl⟩
  have hanswer := (frames_touch_what_they_are_for hhasty scrubbing).2.1 _ reads_scrubbing.document
    ⟨_, rfl, by simp [Json.ofNat]⟩
  have hslot := (hanswer.2.1 _ 7 scrubReport says_scrubbing
    (by rw [calls_hasty]; exact ⟨rfl, _, rfl, rfl⟩) (by rw [calls_hasty]; rfl)).2
  obtain ⟨-, es, hes, hlookup⟩ :=
    (frames_touch_what_they_are_for hwatching poolChanged).2.2.2.1 _ says_poolChanged
  have hopen : (⟨"pool", 1⟩ : Subscription) ∈ Fanout.stillOpen es := by
    rw [Fanout.mem_stillOpen, ← hes]
    have hsubs : ((ofSettings {}).run watching).fanout.subscribers "pool" = [1] := by cbv
    rw [hsubs]
    simp
  have hbox := hlookup 1
  have hold : ((ofSettings {}).run watching).fanout.mailboxes.lookup 1 =
      some (Mailbox.ofCapacity (Settings.capacity {})) := by cbv
  rw [hold, Option.map_some, if_pos hopen] at hbox
  exact ⟨hhasty, hslot, hwatching, _, hbox, by cbv⟩

end ServerLink.Link
