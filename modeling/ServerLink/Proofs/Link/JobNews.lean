import ServerLink.Proofs.Job.News
import ServerLink.Proofs.Link.Slots

/-!
# What news about a job come to

In whichever form the server tells of the end of a job, the caller that waits for it is told the
same, which is what the payload says (`job_news_is_told_alike`).
-/

namespace ServerLink.Link

open ServerLink.Job (Form Tells Yields)

variable {l m : Link} {task : Nat} {x : Exchange} {token : Option Nat} {r : Job.Report}

/-- What a text does depends on what is read from it alone. -/
theorem step_text_congr {s t : String} (h : Frame.ofText s = Frame.ofText t) (l : Link) :
    l.step (.receive (.text s)) = l.step (.receive (.text t)) := by
  simp only [step, receive, dispatch, h]

/-- The last report of a job fills the slot of the call that waits for it. -/
theorem slot_of_report (ht : r.state.isTerminal = true) {call : Nat}
    (hw : l.calls.jobs.waiting.lookup r.id = some call) :
    (l.perform (.report r)).slots.lookup call = some (.filled r.outcome) := by
  rw [slots_perform, if_neg (by simp), ends]
  rcases Calls.step_report l.calls r with ⟨hf, -⟩ | ⟨-, call', hw', hs⟩ | ⟨-, hnone, -⟩
  · rw [ht] at hf
    cases hf
  · rw [hw] at hw'
    cases hw'
    rw [hs, endsOf_filled, if_pos rfl]
    rfl
  · rw [hw] at hnone
    cases hnone

/-- A caller that has written its call is told its end as soon as it looks, unless it is cancelled
before. -/
theorem told_by_resume {o : Outcome} (ht : l.tasks.lookup task = some (.call x token))
    (hx : x.stage = .waiting) (hs : l.slots.lookup x.id = some (.filled o)) (w : Wakeup)
    {eager : Bool} (hc : cancellation (l.isFired token) eager ≠ .seenFirst) :
    (l.step (.resume task w eager)).tasks.lookup task = none ∧
      (l.step (.resume task w eager)).results.lookup task = some (o.map .value) := by
  have hresume : l.resume (.caller task) x (cancellation (l.isFired token) eager) w =
      (l.forget x.id, .over o) := by
    simp only [resume, hx, await, hc, ↓reduceIte, endOf?, hs, Option.map_some]
  simp only [step, ht, resumeTask, hresume, proceed, finishCall, finish]
  exact ⟨Table.lookup_erase_self, Table.lookup_insert_self⟩

/-- **The three forms are alike.** Texts that tell of a job with one payload, in whatever form, are
all malformed for one reason, or they are all read as one report, which says what the payload says.
Then they do the same to any connection. If the report is the job's last, and a caller's call waits
for the job, then, as long as that call is in hand, the caller is told what the report yields
whenever it looks, unless it is cancelled before. -/
theorem job_news_is_told_alike {payload : Json} {texts : Form → String}
    (h : ∀ f : Form, f.Sent payload (texts f)) :
    (∃ e : Json.ShapeError, ∀ f,
      Frame.ofText (texts f) = .error (.malformed f.method e.message)) ∨
    ∃ r, (∀ f, Frame.ofText (texts f) = .ok (.job r)) ∧
      Tells payload r ∧ Yields payload r r.outcome ∧
      (∀ (l : Link) f g, l.step (.receive (.text (texts f))) =
        l.step (.receive (.text (texts g)))) ∧
      ∀ l : Link, l.Reachable → l.reader = .running → ∀ task x token,
        l.tasks.lookup task = some (.call x token) → r.state.isTerminal = true →
        l.calls.jobs.waiting.lookup r.id = some x.id → ∀ f,
        (l.step (.receive (.text (texts f)))).tasks.lookup task = some (.call x token) ∧
        ∀ later y, let m := (l.step (.receive (.text (texts f)))).run later
          m.tasks.lookup task = some (.call y token) → y.id = x.id → y.stage = .waiting →
          ∀ w eager, cancellation (m.isFired token) eager ≠ .seenFirst →
            (m.step (.resume task w eager)).tasks.lookup task = none ∧
            (m.step (.resume task w eager)).results.lookup task =
              some (r.outcome.map .value) := by
  have hread : ∀ f, Frame.ofText (texts f) = Frame.ofJobPayload f.method payload :=
    fun f => Job.ofText_of_sent (h f)
  cases hr : Job.Report.ofPayload payload with
  | error e => exact .inl ⟨e, fun f => by rw [hread, Frame.ofJobPayload, hr]⟩
  | ok r =>
    have htext : ∀ f, Frame.ofText (texts f) = .ok (.job r) :=
      fun f => by rw [hread, Frame.ofJobPayload, hr]
    have htells := Job.tells_of_ofPayload hr
    refine .inr ⟨r, htext, htells, htells.yields, fun l f g => ?_, ?_⟩
    · exact step_text_congr ((htext f).trans (htext g).symm) l
    intro l hl hrunning task x token ht hterminal hw f
    have hstep : l.step (.receive (.text (texts f))) = l.perform (.report r) :=
      step_receive hrunning (Frame.ofText_eq_ok.1 (htext f))
    have hreach : (l.perform (.report r)).Reachable := by
      rw [← hstep]
      exact hl.run [.receive (.text (texts f))]
    rw [hstep]
    refine ⟨(samePlace_perform l (.report r) (.caller task)).1.trans ht, ?_⟩
    intro later y m hy hid hstage w eager hc
    have hknown : m.Known y.id :=
      (hreach.tidy.run later).known_of_callOf (a := .caller task) (by rw [callOf, hy]; rfl)
    have hslot : m.slots.lookup y.id = some (.filled r.outcome) := by
      rw [hid] at hknown ⊢
      exact slot_run hreach.spent hreach.tidy hknown (slot_of_report hterminal hw)
    exact told_by_resume hy hstage hslot w hc

/-! ## A job of which the server tells in three ways -/

def scrubPayload : Json := .object [("id", .ofNat 7), ("state", .string "SUCCESS")]

def scrubbedFields : String :=
  "\x7b\"method\":\"job_update\",\"params\":" ++
    "\x7b\"fields\":\x7b\"id\":7,\"state\":\"SUCCESS\"\x7d\x7d\x7d"

def scrubbedItem : String :=
  "\x7b\"method\":\"collection_update\",\"params\":\x7b\"collection\":\"core.get_jobs\"," ++
    "\"fields\":\x7b\"id\":7,\"state\":\"SUCCESS\"\x7d,\"id\":7,\"msg\":\"changed\"\x7d\x7d"

def scrubbedIn : Form → String
  | .bare => scrubbed
  | .wrapped => scrubbedFields
  | .streamed => scrubbedItem

theorem reads_scrubbedFields : Frame.Reads scrubbedFields [("method", .string "job_update"),
    ("params", .object [("fields", scrubPayload)])] :=
  ⟨by decide +kernel, by rw [Json.read?, Json.tokens?_eq]; cbv⟩

theorem reads_scrubbedItem : Frame.Reads scrubbedItem [("method", .string "collection_update"),
    ("params", .object [("collection", .string "core.get_jobs"), ("fields", scrubPayload),
      ("id", .ofNat 7), ("msg", .string "changed")])] :=
  ⟨by decide +kernel, by rw [Json.read?, Json.tokens?_eq]; cbv⟩

theorem scrubbed_sent (f : Form) : f.Sent scrubPayload (scrubbedIn f) := by
  have hno : ∀ {v w : Json}, ¬ Frame.HasId [("method", v), ("params", w)] := by
    rintro v w ⟨u, hu, -⟩
    cases hu
  cases f with
  | bare => exact ⟨_, reads_scrubbed, hno, rfl, .bare rfl⟩
  | wrapped => exact ⟨_, reads_scrubbedFields, hno, rfl, .wrapped rfl⟩
  | streamed => exact ⟨_, reads_scrubbedItem, hno, rfl, .streamed rfl rfl rfl⟩

/-- A caller whose call waits for the job. -/
def scrubWaiting : List Event := hasty.take 5 ++ [.receive (.text scrubbing)]

theorem scrub_waiting : ∃ x : Exchange, x.id = 2 ∧ x.stage = .waiting ∧
    ((ofSettings {}).run scrubWaiting).reader = .running ∧
    ((ofSettings {}).run scrubWaiting).tasks.lookup 1 = some (.call x none) ∧
    ((ofSettings {}).run scrubWaiting).calls.jobs.waiting.lookup 7 = some 2 := by
  have haccepted : (ofSettings {}).run (hasty.take 3) = ((ofSettings {}).run (hasty.take 2)).perform
      (.answer { id := 1, result := .bool true }) :=
    step_receive (by cbv) (.answer reads_accepted rfl)
  obtain ⟨l, frame, hl, hstarted⟩ : ∃ (l : Link) (frame : String),
      l = ((ofSettings {}).run (hasty.take 3)).run ((hasty.drop 3).take 2) ∧
        (l.reader, l.calls, l.tasks) = (.running, { nextId := 3, pending := [(2, .job)] },
          [(1, .call { id := 2, method := "scrub", kind := .job, frame, stage := .waiting }
            none)]) := by
    rw [haccepted]
    exact ⟨_, _, rfl, by cbv⟩
  simp only [Prod.mk.injEq] at hstarted
  obtain ⟨hreader, hcalls, htasks⟩ := hstarted
  have hscrubbing : (ofSettings {}).run scrubWaiting =
      l.perform (.answer { id := 2, result := .ofNat 7 }) := by
    rw [hl] at hreader ⊢
    exact step_receive hreader says_scrubbing
  refine ⟨{ id := 2, method := "scrub", kind := .job, frame, stage := .waiting }, rfl, rfl,
    ?_, ?_, ?_⟩
  · rw [hscrubbing, perform_frame]
    exact hreader
  · rw [hscrubbing, perform_frame]
    exact congrArg (List.lookup 1) htasks
  · rw [hscrubbing, calls_perform]
    show (l.calls.step _).1.jobs.waiting.lookup 7 = some 2
    rw [hcalls]
    rfl

/-- Whichever way the server tells of the end of the job, its caller gets the result. -/
theorem scrub_result_arrives :
    let told f := (((ofSettings {}).run scrubWaiting).step (.receive (.text (scrubbedIn f)))).step
      (.resume 1 .nothing false)
    (told .bare).results.lookup 1 = some (.ok (.value .null)) ∧
      (told .wrapped).results.lookup 1 = some (.ok (.value .null)) ∧
      (told .streamed).results.lookup 1 = some (.ok (.value .null)) := by
  intro told
  suffices harrives : ∀ f, (told f).results.lookup 1 = some (.ok (.value .null)) from
    ⟨harrives .bare, harrives .wrapped, harrives .streamed⟩
  intro f
  rcases job_news_is_told_alike scrubbed_sent with ⟨e, he⟩ | ⟨r, hr, -, -, -, htold⟩
  · cases (he .bare).symm.trans (Frame.ofText_eq_ok.2 says_scrubbed)
  · cases (hr .bare).symm.trans (Frame.ofText_eq_ok.2 says_scrubbed)
    obtain ⟨x, hid, hstage, hreader, ht, hw⟩ := scrub_waiting
    obtain ⟨ht', hlater⟩ := htold _ ⟨{}, scrubWaiting, rfl⟩ hreader 1 x none ht rfl
      (by rw [hid]; exact hw) f
    exact (hlater [] x ht' rfl hstage .nothing false (by simp [isFired, cancellation])).2

end ServerLink.Link
