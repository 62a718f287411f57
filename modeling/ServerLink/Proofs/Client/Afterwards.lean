import ServerLink.Proofs.Client.Connected

/-!
# Operations after the end

After the connection of a client has ended, calls fail with the reason of the end, whether they
wait for a job or not (`operations_report_why`). A subscription fails with an error of its own
(`subscribing_hides_the_cause`).
-/

namespace ServerLink.Client

open ServerLink.Frame (Says)

/-- No task has had this number. -/
def IsFresh (c : Client) (task : Nat) : Prop :=
  c.result? task = none ∧ ∀ l, c.link = some l → l.tasks.lookup task = none

/-- The caller no longer waits for this task, or uses its number again. -/
def Event.Releases (task : Nat) : Event → Prop
  | .connect n _ | .link (.drop n) => n = task
  | _ => False

variable {c : Client} {l m : Link} {task : Nat} {reason : LinkError}

theorem result?_eq (hr : c.results.lookup task = none) (hl : c.link = some l) :
    c.result? task = l.results.lookup task := by
  simp [result?, hr, hl]

theorem closeReason_eq (hl : c.link = some l) : c.closeReason = l.calls.closed := by
  simp [closeReason, hl]

theorem link_of_closeReason (hend : c.closeReason = some reason) :
    ∃ l, c.link = some l ∧ l.calls.closed = some reason := by
  cases hl : c.link with
  | none => simp [closeReason, hl] at hend
  | some l => exact ⟨l, rfl, by rw [← closeReason_eq hl]; exact hend⟩

theorem IsFresh.unused (hf : c.IsFresh task) (hl : c.link = some l) :
    c.results.lookup task = none ∧ l.tasks.lookup task = none ∧ l.results.lookup task = none := by
  obtain ⟨hr, ht⟩ := hf
  cases hc : c.results.lookup task with
  | some r => simp [result?, hc] at hr
  | none => exact ⟨rfl, ht l hl, by rw [← result?_eq hc hl]; exact hr⟩

/-- What a caller asks for under a fresh number is started. -/
theorem step_start (hf : c.IsFresh task) (hl : c.link = some l) (o : Operation) :
    c.step (.start task o) = { c with link := some (l.startTask task o) } := by
  obtain ⟨-, ht, hr⟩ := hf.unused hl
  have hu : l.isUsed task = false := by simp [Link.isUsed, ht, hr]
  simp [Client.step, Client.start, hl, Link.step, hu]

/-- What comes of an operation that is over at once. -/
theorem result?_start (hf : c.IsFresh task) (hl : c.link = some l) {o : Operation} {r : Result}
    (ho : l.startTask task o = l.finish task r) :
    (c.step (.start task o)).result? task = some r := by
  rw [step_start hf hl, ho]
  have hr := result?_eq (c := { c with link := some (l.finish task r) }) (hf.unused hl).1 rfl
  exact hr.trans Table.lookup_insert_self

/-- No connection ends for the reason with which a subscription fails. -/
theorem Cause.ne_unsubscribed (h : Cause reason) :
    reason ≠ .closed "subscriptions are closed" := by
  -- all the texts differ from it in their second letter
  have hne : ∀ text : String, text.toList[1]? ≠ some 'u' →
      LinkError.closed text ≠ .closed "subscriptions are closed" := by
    rintro text ht ⟨⟩
    exact ht rfl
  cases h with
  | actor a h =>
    cases h with
    | transport text => simp
    | close n => exact hne _ (by decide)
    | goodbye text =>
      refine hne _ ?_
      split
      · decide
      · rw [String.toList_append]
        exact fun ht => by cases ht
    | reset => exact hne _ (by decide)
    | silence failure =>
      refine hne _ ?_
      rw [String.toList_append]
      exact fun ht => by cases ht
  | dropped h => exact h ▸ hne _ (by decide)

/-! ## What goes on after the end -/

theorem closeReason_run (h : c.Inv) (hend : c.closeReason = some reason) (events : List Event) :
    (c.run events).closeReason = some reason := by
  obtain ⟨l, hl, hc⟩ := link_of_closeReason hend
  rw [closeReason_eq (run_connected h hl events).1]
  exact Link.closed_run (h.sound l hl).inv hc _

/-- What a client does by itself goes on by itself. -/
theorem onLink?_of_patient {later : List Link.Event} (hp : Link.Patient later) :
    (later.map Event.link).filterMap Event.onLink? = later := by
  rw [List.filterMap_map]
  refine (List.filterMap_congr fun e he => ?_).trans List.filterMap_some
  obtain ⟨a, rfl⟩ := hp e he
  cases a <;> rfl

/-- A task that fails with this reason, once it is told. -/
def Denies (c : Client) (task : Nat) (reason : LinkError) : Prop :=
  c.results.lookup task = none ∧
    ∃ l, c.link = some l ∧ l.calls.closed = some reason ∧ l.Denied task reason

theorem Denies.start (hend : c.closeReason = some reason) (hf : c.IsFresh task) (method : String)
    (params : Json) (token : Option Nat) :
    (c.step (.start task (.callAndWait method params token))).Denies task reason := by
  obtain ⟨l, hl, hc⟩ := link_of_closeReason hend
  obtain ⟨hr, -, hr'⟩ := hf.unused hl
  rw [step_start hf hl]
  have hd : (l.ensureJobs task method params token).Denied task reason := .ensureJobs hc hr'
  refine ⟨hr, _, rfl, ?_, hd⟩
  show (l.ensureJobs task method params token).calls.closed = _
  rcases Link.ensureJobs_of_closed hc with ⟨hs, -⟩ | ⟨s, hs⟩ <;> rw [hs] <;> exact hc

theorem Denies.run (h : c.Inv) (hd : c.Denies task reason) {events : List Event}
    (hno : ∀ e ∈ events, ¬ e.Releases task) : (c.run events).Denies task reason := by
  obtain ⟨hr, l, hl, hc, hd⟩ := hd
  have hi := (h.sound l hl).inv
  obtain ⟨hlink, hresults⟩ := run_connected h hl events
  refine ⟨?_, _, hlink, Link.closed_run hi hc _, hd.run hi hc fun hm => ?_⟩
  · exact (hresults task fun credentials hm => hno _ hm rfl).trans hr
  · obtain ⟨e, he, hon⟩ := List.mem_filterMap.1 hm
    cases e with
    | link e =>
      simp only [Event.onLink?] at hon
      split at hon <;> cases hon
      exact hno _ he rfl
    | _ => cases hon

theorem Denies.result? (hd : c.Denies task reason) :
    c.result? task = none ∨ c.result? task = some (.error reason) := by
  obtain ⟨hr, l, hl, -, hd⟩ := hd
  rw [result?_eq hr hl]
  cases hd with
  | waiting _ hr => exact .inl hr
  | told _ hr => exact .inr hr

theorem Denies.comes_to_know (h : c.Inv) (hd : c.Denies task reason) : ∃ later,
    Link.Patient later ∧ (c.run (later.map .link)).result? task = some (.error reason) := by
  obtain ⟨hr, l, hl, hc, hd⟩ := hd
  have hs := h.sound l hl
  obtain ⟨later, hpatient, hresult⟩ := Link.denied_comes_to_know hs.inv hs.tidy hc hd
  obtain ⟨hlink, hresults⟩ := run_connected h hl (later.map .link)
  rw [onLink?_of_patient hpatient] at hlink
  refine ⟨later, hpatient, ?_⟩
  rw [result?_eq ((hresults task (by simp)).trans hr) hlink]
  exact hresult

/-- **A client that has ended reports why.** Once the connection of a client has ended, whatever has
happened before, its reason is one of those for which connections end, and stays. A call under a
fresh number fails with the reason at once. A call that waits for a job gives nothing but the
reason, whatever else happens, and comes to give it if everybody goes on. A subscription fails with
an error that is not the reason. -/
theorem operations_report_why (h : c.Reachable) (hend : c.closeReason = some reason)
    (hf : c.IsFresh task) :
    Cause reason ∧ (∀ events, (c.run events).closeReason = some reason) ∧
    (∀ method params token, (c.step (.start task (.call method params token))).result? task =
      some (.error reason)) ∧
    (∀ method params token events, (∀ e ∈ events, ¬ e.Releases task) →
      let d := (c.step (.start task (.callAndWait method params token))).run events
      (d.result? task = none ∨ d.result? task = some (.error reason)) ∧
      ∃ later, Link.Patient later ∧
        (d.run (later.map .link)).result? task = some (.error reason)) ∧
    reason ≠ .closed "subscriptions are closed" ∧
    ∀ collection filter, (c.step (.start task (.subscribe collection filter))).result? task =
      some (.error (.closed "subscriptions are closed")) := by
  have hi := h.inv
  obtain ⟨l, hl, hc⟩ := link_of_closeReason hend
  have hs := hi.sound l hl
  have hcause := hs.cause reason hc
  refine ⟨hcause, closeReason_run hi hend, fun method params token => ?_,
    fun method params token events hno => ?_, hcause.ne_unsubscribed, fun collection filter => ?_⟩
  · exact result?_start hf hl (Link.startTask_call hc task method params token)
  · have hd := (Denies.start hend hf method params token).run (hi.step _) hno
    exact ⟨hd.result?, hd.comes_to_know ((hi.step _).run events)⟩
  · exact result?_start hf hl (Link.startSubscribe_of_closed hc hs.inv collection filter)

/-! ## A client that has connected and closed -/

def named : Settings := { host := "h" }

def visitor : Credentials := { username := "u", apiKey := "k" }

def granted : String := "\x7b\"id\":1,\"result\":\x7b\"response_type\":\"SUCCESS\"\x7d\x7d"

def grantedAnswer : Response :=
  { id := 1, result := .object [("response_type", .string "SUCCESS")] }

def dated : String := "\x7b\"id\":2,\"result\":\"25.04\"\x7d"

def datedAnswer : Response := { id := 2, result := .string "25.04" }

/-- A request is written and answered. -/
def exchange (answer : String) : List Event :=
  [.link (.resume 1 .written false), .link (.receive (.text answer)),
    .link (.resume 1 .nothing false)]

/-- The client logs in, asks for the version, and closes. -/
def visit : List Event :=
  [.connect 1 (.ok visitor), .opened .opened] ++ exchange granted ++ exchange dated ++
    [.start 2 .close]

theorem says_granted : Says granted (.answer grantedAnswer) :=
  .answer ⟨by decide, by rw [Json.read?, Json.tokens?_eq]; cbv⟩ rfl

theorem says_dated : Says dated (.answer datedAnswer) :=
  .answer ⟨by decide, by rw [Json.read?, Json.tokens?_eq]; cbv⟩ rfl

theorem loginParams_visitor : Link.loginParams visitor = .array [.object
    [("api_key", .string "k"), ("mechanism", .string "API_KEY_PLAIN"),
      ("username", .string "u")]] := by
  have hmu : "mechanism" ≤ "username" := by decide
  have hma : ¬ "mechanism" ≤ "api_key" := by decide
  simp [Link.loginParams, Json.ofMembers, List.mergeSort, List.MergeSort.Internal.splitInTwo,
    hmu, hma]
  rfl

theorem frame_visitor : ∃ text, Request.frame
    { id := 1, method := Method.login, params := Link.loginParams visitor } = .ok text := by
  rw [loginParams_visitor]
  exact ⟨_, if_neg (by cbv)⟩

/-- What an exchange does to the connection. -/
def exchanged (l : Link) (r : Response) : Link :=
  ((l.step (.resume 1 .written false)).perform (.answer r)).step (.resume 1 .nothing false)

/-! The connection and the client while they greet; `text` is the request to log in. -/

def atLogin (text : String) : Link :=
  { settings := named, calls := { nextId := 2, pending := [(1, .plain)] }, line := [.caller 1],
    sent := [text], tasks := [(1, .login ⟨1, Method.login, .plain, text, .writing⟩)] }

def atVersion (text : String) : Link := exchanged (atLogin text) grantedAnswer

def greeted (text : String) : Link := exchanged (atVersion text) datedAnswer

def greeting (l : Link) : Client :=
  { settings := named, connecting := true, attempt := some ⟨1, .greeting l⟩ }

/-- The client when it has connected. -/
def visiting (l : Link) : Client :=
  { settings := named, connecting := true, link := some l, version := some ⟨25, 4⟩,
    results := [(1, .ok .done)] }

theorem startHandshake_visitor {text : String} (hf : Request.frame
    { id := 1, method := Method.login, params := Link.loginParams visitor } = .ok text) :
    (Link.ofSettings named).startHandshake 1 visitor = atLogin text := by
  have hr : Calls.register {} .plain = .ok (1, { nextId := 2, pending := [(1, .plain)] }) := rfl
  simp only [Link.startHandshake, Link.begin, Link.ofSettings, hr, hf]
  rfl

theorem continueGreeting_none (hr : l.results.lookup task = none) :
    c.continueGreeting task l = { c with attempt := some ⟨task, .greeting l⟩ } := by
  simp only [continueGreeting, hr]

theorem continueGreeting_version (hr : l.results = [(1, .ok (.version ⟨25, 4⟩))]) :
    (greeting m).continueGreeting 1 l = visiting (({ l with results := [] }).step .startProbe) := by
  simp only [continueGreeting, hr]
  rfl

theorem step_greeting (l : Link) {e : Link.Event} (he : isOfLink e = true) :
    (greeting l).step (.link e) = (greeting l).continueGreeting 1 (l.step e) := by
  simp only [Client.step, greeting, he, ↓reduceIte]

/-- A request is written and answered; the answer is not yet seen. -/
theorem run_answered {text : String} {r : Response} (hs : Says text (.answer r))
    (hl : (l.step (.resume 1 .written false)).reader = .running)
    (hr : (l.step (.resume 1 .written false)).results.lookup 1 = none) :
    (greeting l).run [.link (.resume 1 .written false), .link (.receive (.text text))] =
      greeting ((l.step (.resume 1 .written false)).perform (.answer r)) := by
  have hnone : ∀ l m : Link, l.results.lookup 1 = none →
      (greeting m).continueGreeting 1 l = greeting l := fun l m h => continueGreeting_none h
  have hreceive : (l.step (.resume 1 .written false)).step (.receive (.text text)) =
      (l.step (.resume 1 .written false)).perform (.answer r) := Link.step_receive hl hs
  have hkept : ((l.step (.resume 1 .written false)).perform (.answer r)).results.lookup 1 = none :=
    (Link.samePlace_perform _ _ (.caller 1)).2.trans hr
  simp only [run, List.foldl_cons, List.foldl_nil]
  rw [step_greeting _ rfl, hnone _ _ hr, step_greeting _ rfl, hreceive, hnone _ _ hkept]

theorem run_exchange {text : String} {r : Response} (hs : Says text (.answer r))
    (hl : (l.step (.resume 1 .written false)).reader = .running)
    (hr : (l.step (.resume 1 .written false)).results.lookup 1 = none) : ∃ m,
    (greeting l).run (exchange text) = (greeting m).continueGreeting 1 (exchanged l r) := by
  have hanswered := run_answered hs hl hr
  refine ⟨(l.step (.resume 1 .written false)).perform (.answer r), ?_⟩
  simp only [run, exchange, List.foldl_cons, List.foldl_nil] at hanswered ⊢
  rw [hanswered, step_greeting _ rfl]
  rfl

theorem step_connect_visitor : (ofSettings named).step (.connect 1 (.ok visitor)) =
    { settings := named, connecting := true, attempt := some ⟨1, .opening visitor⟩ } := by
  cbv

/-- The client has logged in. -/
theorem run_login : ∃ text, ((ofSettings named).step (.connect 1 (.ok visitor))).run
    ([.opened .opened] ++ exchange granted) = greeting (atVersion text) := by
  obtain ⟨text, hf⟩ := frame_visitor
  refine ⟨text, ?_⟩
  have hopened : ((ofSettings named).step (.connect 1 (.ok visitor))).run [.opened .opened] =
      greeting (atLogin text) := by
    rw [step_connect_visitor]
    show continueGreeting _ 1 ((Link.ofSettings named).startHandshake 1 visitor) = _
    rw [startHandshake_visitor hf]
    exact continueGreeting_none rfl
  obtain ⟨m, hlogin⟩ := run_exchange (l := atLogin text) says_granted (by cbv) (by cbv)
  have hasked : (atVersion text).results.lookup 1 = none := by cbv
  have hlogin : (greeting (atLogin text)).run (exchange granted) = greeting (atVersion text) :=
    hlogin.trans (continueGreeting_none hasked)
  simp only [run, List.foldl_append] at hopened hlogin ⊢
  rw [hopened, hlogin]

/-- The client has connected. -/
theorem run_arrival : ∃ text, ((ofSettings named).step (.connect 1 (.ok visitor))).run
    (.opened .opened :: exchange granted ++ exchange dated) =
      visiting (({ greeted text with results := [] }).step .startProbe) := by
  obtain ⟨text, hlogin⟩ := run_login
  refine ⟨text, ?_⟩
  obtain ⟨n, hversion⟩ := run_exchange (l := atVersion text) says_dated (by cbv) (by cbv)
  have hgreeted : (greeted text).results = [(1, .ok (.version ⟨25, 4⟩))] := by cbv
  have hversion := hversion.trans (continueGreeting_version hgreeted)
  simp only [run, List.singleton_append, List.foldl_append] at hlogin hversion ⊢
  rw [hlogin, hversion]
  rfl

theorem run_visit : ∃ text, (ofSettings named).run visit =
    visiting ((({ greeted text with results := [] }).step .startProbe).step (.start 2 .close)) := by
  obtain ⟨text, harrival⟩ := run_arrival
  refine ⟨text, ?_⟩
  simp only [visit, run, List.foldl_append, List.foldl_cons, List.foldl_nil] at harrival ⊢
  rw [harrival]
  rfl

/-- What is asked of the client after its visit. -/
theorem after_visit : ((ofSettings named).run visit).Reachable ∧
    ((ofSettings named).run visit).closeReason = some (.closed "client closed") ∧
    ((ofSettings named).run visit).IsFresh 3 := by
  obtain ⟨text, hrun⟩ := run_visit
  refine ⟨⟨named, visit, rfl⟩, ?_, ?_, fun l hl => ?_⟩
  · rw [hrun]
    cbv
  · rw [hrun]
    cbv
  · rw [hrun] at hl
    rw [← Option.some.inj (show some _ = some l from hl)]
    cbv

/-- A subscription after the end fails, but not with the reason of the end. -/
theorem subscribing_hides_the_cause :
    ((ofSettings named).run visit).closeReason = some (.closed "client closed") ∧
    (((ofSettings named).run visit).step (.start 3 (.subscribe "pool" .null))).result? 3 =
      some (.error (.closed "subscriptions are closed")) ∧
    ¬ ∀ c : Client, c.Reachable → ∀ reason task, c.closeReason = some reason → c.IsFresh task →
      ∀ collection filter, (c.step (.start task (.subscribe collection filter))).result? task =
        some (.error reason) := by
  obtain ⟨hr, hend, hf⟩ := after_visit
  have hwhy : (((ofSettings named).run visit).step (.start 3 (.subscribe "pool" .null))).result? 3 =
      some (.error (.closed "subscriptions are closed")) := by
    obtain ⟨l, hl, hc⟩ := link_of_closeReason hend
    exact result?_start hf hl
      (Link.startSubscribe_of_closed hc (hr.inv.sound l hl).inv "pool" .null)
  refine ⟨hend, hwhy, fun hall => ?_⟩
  have hwrong := hall _ hr _ 3 hend hf "pool" .null
  rw [hwhy] at hwrong
  simp at hwrong

theorem call_after_visit_reports_the_close :
    ((ofSettings named).run visit).Reachable ∧
    ((ofSettings named).run visit).closeReason = some (.closed "client closed") ∧
    ((ofSettings named).run visit).IsFresh 3 ∧
    (((ofSettings named).run visit).step (.start 3 (.call "m" .null none))).result? 3 =
      some (.error (.closed "client closed")) := by
  obtain ⟨hr, hend, hf⟩ := after_visit
  exact ⟨hr, hend, hf, (operations_report_why hr hend hf).2.2.1 "m" .null none⟩

end ServerLink.Client
