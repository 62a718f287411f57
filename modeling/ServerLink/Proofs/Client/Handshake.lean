import ServerLink.Proofs.Client.Attempts
import ServerLink.Proofs.Link.Closing

/-!
# How an attempt to connect ends

What the server answers to the login and then to the question for its version decides how an attempt
ends (`Settles`). It ends, if everybody goes on; and a client whose attempt has failed is as if it
had not tried (`handshake_admits_logins_with_versions`).
-/

namespace ServerLink.Client

open ServerLink.Greeting (Verdict)

/-- The server's answer to the request that an attempt has made, if this event brings it. -/
def answerTo? (c : Client) (e : Event) : Option (String × Response) :=
  match c.attempt, e with
  | some ⟨task, .greeting l⟩, .link e => if isOfLink e then l.answerTo? task e else none
  | _, _ => none

/-- The server's answers to an attempt in a run, in order: the method that was called, and the
answer. -/
def told (c : Client) : List Event → List (String × Response)
  | [] => []
  | e :: es => (c.answerTo? e).toList ++ (c.step e).told es

/-- An event that leaves an attempt to itself: its caller does not give it up, and an answer that is
there to see is seen before a write fails or the time for the handshake is over. -/
structure Heeds (c : Client) (task : Nat) (e : Event) : Prop where
  kept : e ≠ .dropAttempt ∧ e ≠ .link (.drop task)
  heeded : ∀ l, c.attempt = some ⟨task, .greeting l⟩ → l.HasAnswer task →
    e ≠ .handshakeLate ∧ ∀ w eager, e = .link (.resume task w eager) →
      (∀ reason, w ≠ .writeFailed reason) ∧ w ≠ .writeTimedOut

/-- An attempt is left to itself during a run, and does not end. -/
def Underway (c : Client) (task : Nat) (events : List Event) : Prop :=
  ∀ before e after, events = before ++ e :: after →
    (c.run before).Heeds task e ∧ ∀ r, ¬ (c.run before).Ends e task r

/-- What an attempt comes to after these answers. -/
structure Settles (told : List (String × Response)) (r : Result) : Prop where
  succeeds : r = .ok .done ↔ ∃ a b v,
    told = [(Method.login, a), (Method.systemVersion, b)] ∧ a.Admits ∧ b.Dates v
  refused : ∀ a, (Method.login, a) ∈ told → ¬ a.Admits → ∃ text, r = .error (.authentication text)
  undated : ∀ b, (Method.systemVersion, b) ∈ told → b.error = none → (∀ v, ¬ b.Dates v) →
    ∃ text, r = .error (.protocol text)
  failed : ∀ b e, (Method.systemVersion, b) ∈ told → b.error = some e → r = .error (.rpc e)
  unanswered : (∀ a, (Method.login, a) ∈ told → a.Admits) →
    (∀ b, (Method.systemVersion, b) ∉ told) → ∃ why, r = .error why ∧ why.isSilence = true

/-- The answers decide how an attempt ends. -/
def Decides (told : List (String × Response)) : Prop :=
  ∃ a, (Method.login, a) ∈ told ∧ (a.Admits → ∃ b, (Method.systemVersion, b) ∈ told)

/-- An attempt comes to its end when everybody goes on, as these answers say. -/
def ComesToEnd (c : Client) (task : Nat) (told : List (String × Response)) : Prop :=
  ∃ later e r, Link.Onward (later ++ [e]) ∧ c.Underway task (later.map .link) ∧
    (c.run (later.map .link)).Heeds task (.link e) ∧
    (c.run (later.map .link)).Ends (.link e) task r ∧ Settles told r

/-- The connection of an attempt that fails by this event, as the event leaves it. -/
inductive LeavesBehind (c : Client) : Event → Link → Prop
  | closing {task : Nat} {l : Link} {reason : LinkError} {e : Link.Event}
      (ha : c.attempt = some ⟨task, .closing l reason⟩) : LeavesBehind c (.link e) (l.step e)
  | greeting {task : Nat} {l : Link} {e : Link.Event} (ha : c.attempt = some ⟨task, .greeting l⟩) :
      LeavesBehind c (.link e)
        (({ l.step e with results := Table.erase (l.step e).results task }).startClose task)
  | late {task : Nat} {l : Link} (ha : c.attempt = some ⟨task, .greeting l⟩) :
      LeavesBehind c .handshakeLate (({ l.step (.drop task) with
        results := Table.erase (l.step (.drop task)).results task }).startClose task)

/-- A client that is as if it had not tried to connect. -/
structure Unconnected (c : Client) : Prop where
  down : c.isConnected = false
  version : c.version = none
  refuses : ∀ task o, o ≠ .close →
    (c.step (.start task o)).result? task = some (.error .notConnected)
  admits : ∀ task found,
    (c.step (.connect task (.ok found))).attempt = some ⟨task, .opening found⟩

/-- A connection on which an attempt greets the server. -/
structure Greets (l : Link) (task : Nat) (told : List (String × Response)) : Prop where
  unforced : l.Unforced
  alone : l.Alone task
  joinable : l.joinable = true
  stands : l.Stands task told

/-- Where an attempt stands after these answers. -/
inductive Stands (c : Client) (task : Nat) (told : List (String × Response)) : Prop
  | greeting {l : Link} (ha : c.attempt = some ⟨task, .greeting l⟩) (hl : Greets l task told)
      (hr : l.results.lookup task = none)
  | closing {l : Link} {why : LinkError} (ha : c.attempt = some ⟨task, .closing l why⟩)
      (hl : l.ClosedBy task) (hr : l.results.lookup task = none) (hv : Verdict told (.error why))

/-- What an event brings an attempt to that is left to itself. -/
inductive Course (c : Client) (e : Event) (task : Nat) (told : List (String × Response)) : Prop
  | goesOn (h : (c.step e).Stands task told)
  | succeeds {v : Version} (he : c.Ends e task (.ok .done)) (hv : Verdict told (.ok (.version v)))
      (hversion : (c.step e).version = some v)
  | fails {why : LinkError} (he : c.Ends e task (.error why)) (hv : Verdict told (.error why))
      (hlink : (c.step e).link = c.link ∧ (c.step e).connecting = false ∧
        (c.step e).version = c.version)
      (hm : ∃ m, LeavesBehind c e m ∧ m.TornDown)

variable {c d : Client} {l m : Link} {task n : Nat} {told : List (String × Response)} {e : Event}
  {r : Result} {why : LinkError} {events : List Event}

/-! ## The connection of an attempt -/

theorem within_of_isOfLink {e : Link.Event} (he : isOfLink e = true) (hd : e ≠ .drop task) :
    e.Within task := by
  have hne : ∀ d : Link.Event, isOfLink d = false → e ≠ d := by
    rintro d hno rfl
    rw [hno] at he
    cases he
  exact ⟨fun _ _ => hne _ rfl, fun _ _ => hne _ rfl, hne _ rfl, fun _ => hne _ rfl, hd⟩

theorem Greets.event (h : Greets l task told) {e : Link.Event} (he : e.Within task)
    (hw : l.HasAnswer task → ∀ w eager, e = .resume task w eager →
      (∀ reason, w ≠ .writeFailed reason) ∧ w ≠ .writeTimedOut) :
    Greets (l.step e) task (told ++ (l.answerTo? task e).toList) := by
  have hi := h.unforced.reachable.inv
  have hl := h.unforced.reachable.tidy
  refine ⟨h.unforced.event he.teardown, h.alone.event he, ?_,
    h.stands.event h.unforced h.alone he hw⟩
  refine Eq.trans ?_ h.joinable
  rcases h.alone.turns he with (ha | ha) | hsame
  · cases e with
    | resume k w eager =>
      cases ha
      exact h.stands.joinable_resume h.alone hl hi w eager
    | start k o => exact absurd rfl (he.start k o)
    | handshake k c => exact absurd rfl (he.handshake k c)
    | drop k =>
      cases ha
      exact absurd rfl he.drop
    | receive i => cases i <;> cases ha
    | _ => cases ha
  · exact (Link.Steadfast.event ha).joinable
  · rw [hsame]

/-- A connection whose handshake has failed or is given up is closed. -/
theorem Greets.close (h : Greets l task told) (ht : l.tasks.lookup task = none) :
    (({ l with results := Table.erase l.results task }).startClose task).ClosedBy task :=
  .start (h.unforced.reachable.inv.withResults _) (h.unforced.reachable.tidy.withResults _)
    ⟨h.alone.others, h.alone.probe⟩ ht Table.lookup_erase_self h.joinable

/-- A handshake that is not over and has seen all that there is to see has a request in hand. -/
theorem Greets.asking (h : Greets l task told) (hr : l.results.lookup task = none)
    (hno : ¬ l.HasAnswer task) :
    ∃ (g : Greeting) (x : Exchange), g.Follows told ∧ l.Asking task g x := by
  cases h.stands with
  | asking hx hg => exact ⟨_, _, hg, hx⟩
  | @answered _ x _ r hx _ _ hs => exact absurd ⟨x, r, hx.call, hs⟩ hno
  | ended _ hout => cases hr.symm.trans hout

/-- A handshake that takes too long is given up, and its connection is closed. -/
theorem Greets.giveUp (h : Greets l task told) {g : Greeting} {x : Exchange}
    (hx : l.Asking task g x) :
    (({ l.step (.drop task) with
      results := Table.erase (l.step (.drop task)).results task }).startClose task).ClosedBy
      task := by
  have hdrop : (l.step (.drop task)).tasks.lookup task = none ∧
      (l.step (.drop task)).joinable = l.joinable := by
    simp only [Link.step, hx.waits]
    cases g <;> exact ⟨Table.lookup_erase_self, rfl⟩
  have ha := h.alone.of_turn (e := .drop task) (.inl rfl)
  exact .start ((h.unforced.reachable.inv.event _).withResults _)
    ((h.unforced.reachable.tidy.event _).withResults _) ⟨ha.others, ha.probe⟩ hdrop.1
    Table.lookup_erase_self (hdrop.2.trans h.joinable)

/-! ## Events -/

theorem continueClosing_course (ha : ∃ stage, c.attempt = some ⟨task, stage⟩)
    (he : e ≠ .dropAttempt) (hstep : c.step e = c.continueClosing task m why)
    (hm : m.ClosedBy task) (hleft : LeavesBehind c e m) (hv : Verdict told (.error why)) :
    Course c e task told := by
  unfold continueClosing at hstep
  cases hr : m.results.lookup task with
  | none =>
    rw [hr] at hstep
    exact .goesOn (.closing (by rw [hstep]) hm hr hv)
  | some out =>
    rw [hr] at hstep
    refine .fails ⟨ha, he, by rw [hstep]; rfl, ?_⟩ hv ⟨?_, ?_, ?_⟩
      ⟨m, hleft, hm.tornDown (by rw [hr]; simp)⟩
    · rw [hstep]
      exact Table.lookup_insert_self
    all_goals rw [hstep]; rfl

theorem continueGreeting_course {e : Link.Event} (ha : c.attempt = some ⟨task, .greeting l⟩)
    (hstep : c.step (.link e) = c.continueGreeting task (l.step e))
    (hl : Greets (l.step e) task told) : Course c (.link e) task told := by
  have hgoing : ∀ (hr : (l.step e).results.lookup task = none), Course c (.link e) task told :=
    fun hr => .goesOn (.greeting (by rw [hstep, continueGreeting_none hr]) hl hr)
  cases hl.stands with
  | asking h | answered h => exact hgoing h.untold
  | @ended out ht hr hv =>
    cases out with
    | error why =>
      refine continueClosing_course ⟨_, ha⟩ (by simp) ?_ (hl.close ht)
        (.greeting ha) hv
      rw [hstep]
      simp only [continueGreeting, hr]
      rfl
    | ok reply =>
      cases hv with
      | @greeted a b v hadmits hdates =>
        have hend : c.step (.link e) = ({ c with
            attempt := none, version := some v, link := some (({ l.step e with
              results := Table.erase (l.step e).results task }).step .startProbe) }).finish task
            (.ok .done) := by
          rw [hstep]
          simp only [continueGreeting, hr]
        refine .succeeds ⟨⟨_, ha⟩, by simp, by rw [hend]; rfl, ?_⟩ (.greeted hadmits hdates)
          (by rw [hend]; rfl)
        rw [hend]
        exact Table.lookup_insert_self

/-- An event that does not concern the attempt. -/
theorem Stands.same (h : c.Stands task told) (ha : d.attempt = c.attempt) :
    d.Stands task told := by
  cases h with
  | greeting hc hl hr => exact .greeting (ha.trans hc) hl hr
  | closing hc hl hr hv => exact .closing (ha.trans hc) hl hr hv

theorem Stands.attempting (h : c.Stands task told) : ∃ stage, c.attempt = some ⟨task, stage⟩ := by
  cases h with
  | greeting hc | closing hc => exact ⟨_, hc⟩

/-- An event of the connection of an attempt. -/
theorem Stands.link (h : c.Stands task told) {e : Link.Event} (hof : isOfLink e = true)
    (he : c.Heeds task (.link e)) :
    Course c (.link e) task (told ++ (c.answerTo? (.link e)).toList) := by
  have hwithin : e.Within task := within_of_isOfLink hof fun hd => he.kept.2 (by rw [hd])
  cases h with
  | @greeting l ha hl hr =>
    have hanswer : c.answerTo? (.link e) = l.answerTo? task e := by
      simp only [answerTo?, ha, hof, ↓reduceIte]
    rw [hanswer]
    refine continueGreeting_course ha ?_ (hl.event hwithin fun has w eager hw => ?_)
    · simp only [Client.step, hof, ha, ↓reduceIte]
    · exact (he.heeded l ha has).2 w eager (by rw [hw])
  | @closing l why ha hl hr hv =>
    have hanswer : c.answerTo? (.link e) = none := by simp only [answerTo?, ha]
    rw [hanswer, Option.toList_none, List.append_nil]
    refine continueClosing_course ⟨_, ha⟩ (by simp) ?_ (hl.event hwithin) (.closing ha) hv
    simp only [Client.step, hof, ha, ↓reduceIte]

/-- The time for the handshake is over. -/
theorem Stands.late (h : c.Stands task told) (he : c.Heeds task .handshakeLate) :
    Course c .handshakeLate task told := by
  cases h with
  | @greeting l ha hl hr =>
    obtain ⟨g, x, hg, hx⟩ := hl.asking hr fun has => (he.heeded l ha has).1 rfl
    have hsilence : (LinkError.timeout "login handshake").isSilence = true := rfl
    refine continueClosing_course ⟨_, ha⟩ (by simp) ?_ (hl.giveUp hx) (.late ha)
      (.unanswered hg hsilence)
    simp only [Client.step, ha]
    rfl
  | closing ha hl hr hv =>
    refine .goesOn (.closing ?_ hl hr hv)
    simp only [Client.step, ha]

/-- **One event of an attempt** that is left to itself. -/
theorem Stands.step (h : c.Stands task told) (hi : c.Inv) (he : c.Heeds task e) :
    Course c e task (told ++ (c.answerTo? e).toList) := by
  obtain ⟨stage, ha⟩ := h.attempting
  obtain ⟨hc, hl⟩ := hi.attempting (by rw [ha]; rfl)
  have hquiet : (∀ e', e ≠ .link e') → c.answerTo? e = none := by
    intro hno
    simp only [answerTo?]
    split
    · exact absurd rfl (hno _)
    · rfl
  have hsame : (∀ e', e ≠ .link e') → (c.step e).attempt = c.attempt →
      Course c e task (told ++ (c.answerTo? e).toList) := by
    intro hno hattempt
    rw [hquiet hno, Option.toList_none, List.append_nil]
    exact .goesOn (h.same hattempt)
  cases e with
  | connect n credentials =>
    refine hsame (by simp) ?_
    simp only [Client.step, Client.connect, hc, ↓reduceIte]
    rfl
  | opened opening =>
    refine hsame (by simp) ?_
    cases h with
    | greeting ha | closing ha => simp only [Client.step, ha]
  | handshakeLate =>
    rw [hquiet (by simp), Option.toList_none, List.append_nil]
    exact h.late he
  | dropAttempt => exact absurd rfl he.kept.1
  | start n o =>
    refine hsame (by simp) ?_
    simp only [Client.step, Client.start, hl]
    rfl
  | link e =>
    by_cases hof : isOfLink e = true
    · exact h.link hof he
    · have hstep : c.step (.link e) = c := if_neg hof
      have hanswer : c.answerTo? (.link e) = none := by
        simp only [answerTo?]
        split
        · rename_i he
          cases he
          exact if_neg hof
        · rfl
      rw [hanswer, Option.toList_none, List.append_nil]
      exact .goesOn (by rw [hstep]; exact h)
  | dropClient => exact hsame (by simp) rfl

/-! ## Runs -/

theorem told_append (c : Client) (before after : List Event) :
    c.told (before ++ after) = c.told before ++ (c.run before).told after := by
  induction before generalizing c with
  | nil => rfl
  | cons e before ih => simp only [List.cons_append, told, ih, List.append_assoc]; rfl

theorem told_concat (c : Client) (events : List Event) (e : Event) :
    c.told (events ++ [e]) = c.told events ++ ((c.run events).answerTo? e).toList := by
  rw [told_append]
  simp [told]

/-- **Where an attempt stands** that is left to itself and has not ended. -/
theorem Stands.run (h : c.Stands task told) (hi : c.Inv) (hu : c.Underway task events) :
    (c.run events).Stands task (told ++ c.told events) := by
  induction events using List.reverseRecOn with
  | nil =>
    rw [Client.told, List.append_nil]
    exact h
  | append_singleton events e ih =>
    obtain ⟨hheeds, hno⟩ := hu events e [] rfl
    have hbefore : c.Underway task events := fun before e' after he =>
      hu before e' (after ++ [e]) (by rw [he]; simp)
    rw [run_concat, told_concat, ← List.append_assoc]
    cases (ih hbefore).step (hi.run events) hheeds with
    | goesOn h => exact h
    | succeeds hend | fails hend => exact absurd hend (hno _)

/-- A socket is open: the attempt asks to log in. -/
theorem Greets.start (settings : Settings) (task : Nat) (credentials : Credentials) :
    Greets ((Link.ofSettings settings).startHandshake task credentials) task [] ∧
      ((Link.ofSettings settings).startHandshake task credentials).reader = .running := by
  have hstep : (Link.ofSettings settings).step (.handshake task credentials) =
      (Link.ofSettings settings).startHandshake task credentials := rfl
  have hactor : (Link.Event.handshake task credentials).actor? = some (.caller task) := rfl
  have hreader : Link.SamePlace (Link.ofSettings settings) _ .reader :=
    Link.step_others (e := .handshake task credentials) (by simp [hactor])
  refine ⟨⟨?_, ?_, ?_, .start settings task credentials⟩, hreader⟩
  · exact hstep ▸ (Link.Unforced.ofSettings settings).event (by simp)
  · exact hstep ▸ (Link.Alone.ofSettings settings task).of_turn (.inl rfl)
  · rw [Link.startHandshake]
    have hbegin := (Link.Aside.begin (Link.ofSettings settings) (.caller task) Method.login
      (Link.loginParams credentials) .plain).joinable
    revert hbegin
    generalize (Link.ofSettings settings).begin (.caller task) Method.login
      (Link.loginParams credentials) .plain = p
    obtain ⟨m, x | o⟩ := p
    · exact id
    · exact (Link.joinable_next .login task m o).trans

theorem Stands.opened {credentials : Credentials}
    (ha : c.attempt = some ⟨task, .opening credentials⟩) :
    (c.step (.opened .opened)).Stands task [] := by
  obtain ⟨hl, hreader⟩ := Greets.start c.settings task credentials
  have hstep : c.step (.opened .opened) = c.continueGreeting task
      ((Link.ofSettings c.settings).startHandshake task credentials) := by
    simp only [Client.step, ha]
    rfl
  rw [hstep]
  generalize (Link.ofSettings c.settings).startHandshake task credentials = l at hl hreader
  cases hl.stands with
  | asking h | answered h =>
    rw [continueGreeting_none h.untold]
    exact .greeting rfl hl h.untold
  | @ended out ht hr hv =>
    -- the request was never made; the reader is still running, so the close is not over
    cases hv with
    | @unanswered _ _ why hg hw =>
      have hclosing := hl.close ht
      have hrunning : Link.SamePlace ({ l with results := Table.erase l.results task }) _ .reader :=
        Link.step_others (e := .start task .close) (by simp [Link.Event.actor?])
      have hstart : ({ l with results := Table.erase l.results task }).step (.start task .close) =
          ({ l with results := Table.erase l.results task }).startClose task := by
        have hnone : (Table.erase l.results task).lookup task = none := Table.lookup_erase_self
        simp only [Link.step, Link.isUsed, ht, hnone]
        rfl
      rw [hstart] at hrunning
      have hnone : (({ l with results := Table.erase l.results task }).startClose
          task).results.lookup task = none := by
        cases hclosing.closes with
        | queued _ hr | leaving _ hr | joining _ hr => exact hr
        | done _ _ _ hq => cases (hrunning.symm.trans hq).symm.trans hreader
      have hfails : c.continueGreeting task l = { c with attempt := some ⟨task, .closing
          (({ l with results := Table.erase l.results task }).startClose task) why⟩ } := by
        simp only [continueGreeting, hr, closeAttempt, continueClosing, hnone]
      rw [hfails]
      exact .closing rfl hclosing hnone (.unanswered hg hw)

/-! ## What the answers say -/

theorem login_ne_version : Method.login ≠ Method.systemVersion := by decide

theorem settles_of_version {v : Version} (h : Verdict told (.ok (.version v))) :
    Settles told (.ok .done) ∧ ∃ a b, told = [(Method.login, a), (Method.systemVersion, b)] ∧
      a.Admits ∧ b.Dates v := by
  cases h with
  | @greeted a b _ ha hb =>
    refine ⟨⟨⟨fun _ => ⟨a, b, v, rfl, ha, hb⟩, fun _ => rfl⟩, ?_, ?_, ?_, ?_⟩, a, b, rfl, ha, hb⟩
    · intro a' hm hno
      simp [login_ne_version] at hm
      exact absurd ha (hm ▸ hno)
    · intro b' hm _ hno
      simp [login_ne_version.symm] at hm
      exact absurd hb (hm ▸ hno v)
    · intro b' e hm he
      simp [login_ne_version.symm] at hm
      cases (hm ▸ he).symm.trans hb.1
    · intro _ hno
      exact absurd (by simp) (hno b)

theorem settles_of_error (h : Verdict told (.error why)) : Settles told (.error why) := by
  cases h with
  | @refused a ha text =>
    refine ⟨by simp, fun _ _ _ => ⟨text, rfl⟩, ?_, ?_, ?_⟩
    · intro b hm
      simp [login_ne_version.symm] at hm
    · intro b e hm
      simp [login_ne_version.symm] at hm
    · intro hall
      exact absurd (hall a (by simp)) ha
  | @undated a b ha hb hno text =>
    refine ⟨?_, ?_, fun _ _ _ _ => ⟨text, rfl⟩, ?_, ?_⟩
    · refine iff_of_false (by simp) ?_
      rintro ⟨a', b', v, he, -, hv⟩
      simp at he
      exact hno v (he.2 ▸ hv)
    · intro a' hm hno'
      simp [login_ne_version] at hm
      exact absurd ha (hm ▸ hno')
    · intro b' e hm he
      simp [login_ne_version.symm] at hm
      cases (hm ▸ he).symm.trans hb
    · intro _ hno'
      exact absurd (by simp) (hno' b)
  | @failed a b e ha hb =>
    refine ⟨?_, ?_, ?_, ?_, ?_⟩
    · refine iff_of_false (by simp) ?_
      rintro ⟨a', b', v, he, -, hv⟩
      simp at he
      cases hb.symm.trans (he.2 ▸ hv.1)
    · intro a' hm hno'
      simp [login_ne_version] at hm
      exact absurd ha (hm ▸ hno')
    · intro b' hm hnone
      simp [login_ne_version.symm] at hm
      cases hb.symm.trans (hm ▸ hnone)
    · intro b' e' hm he
      simp [login_ne_version.symm] at hm
      cases hb.symm.trans (hm ▸ he)
      rfl
    · intro _ hno'
      exact absurd (by simp) (hno' b)
  | @unanswered g _ _ hg hw =>
    cases g with
    | login =>
      obtain rfl : told = [] := hg
      exact ⟨by simp, by simp, by simp, by simp, fun _ _ => ⟨why, rfl, hw⟩⟩
    | version =>
      obtain ⟨a, ha, rfl⟩ := hg
      refine ⟨by simp, ?_, ?_, ?_, fun _ _ => ⟨why, rfl, hw⟩⟩
      · intro a' hm hno'
        simp at hm
        exact absurd ha (hm ▸ hno')
      · intro b hm
        simp [login_ne_version.symm] at hm
      · intro b e hm
        simp [login_ne_version.symm] at hm

/-- After answers that decide there is nothing more to ask. -/
theorem Decides.not_follows (h : Decides told) (g : Greeting) : ¬ g.Follows told := by
  obtain ⟨a, hm, hversion⟩ := h
  cases g with
  | login =>
    rintro rfl
    cases hm
  | version =>
    rintro ⟨a', ha', rfl⟩
    simp at hm
    obtain ⟨b, hb⟩ := hversion (hm ▸ ha')
    simp [login_ne_version.symm] at hb

/-! ## A client that has failed to connect -/

/-- A client has a version when it has a connection, and whatever it tries to connect to can be
connected to. -/
structure Sane (c : Client) : Prop where
  version : c.version.isSome = c.link.isSome
  valid : c.attempt.isSome = true →
    c.settings.validate = .ok () ∧ Url.check c.settings.url = .ok ()

theorem Sane.continueClosing (h : c.Sane) (ha : c.attempt.isSome = true) (task : Nat) (m : Link)
    (why : LinkError) : (c.continueClosing task m why).Sane := by
  unfold Client.continueClosing
  split
  · exact ⟨h.version, by rintro ⟨⟩⟩
  · exact ⟨h.version, fun _ => h.valid ha⟩

theorem Sane.continueGreeting (h : c.Sane) (ha : c.attempt.isSome = true) (task : Nat) (m : Link) :
    (c.continueGreeting task m).Sane := by
  unfold Client.continueGreeting
  split
  · exact ⟨h.version, fun _ => h.valid ha⟩
  · exact h.continueClosing ha _ _ _
  · exact ⟨rfl, by rintro ⟨⟩⟩
  · exact ⟨h.version, fun _ => h.valid ha⟩

theorem Sane.step (h : c.Sane) (e : Event) : (c.step e).Sane := by
  cases e with
  | connect n credentials =>
    dsimp only [Client.step, Client.connect]
    split
    · exact ⟨h.version, h.valid⟩
    · split
      · exact ⟨h.version, h.valid⟩
      · rename_i found hvalid
        split
        · exact ⟨h.version, h.valid⟩
        · rename_i hurl
          refine ⟨h.version, fun _ => ⟨?_, hurl⟩⟩
          cases hv : c.settings.validate with
          | error _ => rw [hv] at hvalid; cases hvalid
          | ok _ => rfl
  | opened opening =>
    dsimp only [Client.step]
    split
    · rename_i ha
      cases opening with
      | opened => exact h.continueGreeting (by rw [ha]; rfl) _ _
      | failed _ | timedOut => exact ⟨h.version, by rintro ⟨⟩⟩
    · exact h
  | handshakeLate =>
    dsimp only [Client.step]
    split
    · rename_i ha
      exact h.continueClosing (by rw [ha]; rfl) _ _ _
    · exact h
  | dropAttempt => exact ⟨h.version, by rintro ⟨⟩⟩
  | start n o =>
    dsimp only [Client.step, Client.start]
    split
    · rename_i hl
      exact ⟨h.version.trans (by rw [hl]; rfl), h.valid⟩
    · exact ⟨h.version, h.valid⟩
  | link e =>
    dsimp only [Client.step]
    split
    · split
      · rename_i ha
        exact h.continueGreeting (by rw [ha]; rfl) _ _
      · rename_i ha
        exact h.continueClosing (by rw [ha]; rfl) _ _ _
      · rename_i hl _ _
        exact ⟨h.version.trans (by rw [hl]; rfl), h.valid⟩
      · exact h
    · exact h
  | dropClient => exact ⟨h.version.trans Option.isSome_map.symm, h.valid⟩

theorem Sane.version_none (h : c.Sane) (hl : c.link = none) : c.version = none := by
  have hversion := h.version
  rw [hl] at hversion
  exact Option.not_isSome_iff_eq_none.1 (by rw [hversion]; simp)

theorem Reachable.sane (h : c.Reachable) : c.Sane := by
  obtain ⟨settings, events, rfl⟩ := h
  induction events using List.reverseRecOn with
  | nil => exact ⟨rfl, by rintro ⟨⟩⟩
  | append_singleton events e ih =>
    rw [run_concat]
    exact ih.step e

theorem Reachable.step (h : c.Reachable) (e : Event) : (c.step e).Reachable := by
  obtain ⟨settings, events, rfl⟩ := h
  exact ⟨settings, events ++ [e], (run_concat _ events e).symm⟩

theorem Reachable.run (h : c.Reachable) (events : List Event) : (c.run events).Reachable := by
  obtain ⟨settings, before, rfl⟩ := h
  exact ⟨settings, before ++ events, (run_append _ before events).symm⟩

theorem settings_step (c : Client) (e : Event) : (c.step e).settings = c.settings := by
  have hclosing : ∀ task m why, (c.continueClosing task m why).settings = c.settings := by
    intro task m why
    unfold continueClosing
    split <;> rfl
  have hgreeting : ∀ task m, (c.continueGreeting task m).settings = c.settings := by
    intro task m
    unfold continueGreeting
    split
    · rfl
    · exact hclosing _ _ _
    · rfl
    · rfl
  cases e with
  | connect n credentials =>
    dsimp only [Client.step, Client.connect]
    repeat' split
    all_goals rfl
  | opened opening =>
    dsimp only [Client.step]
    split
    · cases opening with
      | opened => exact hgreeting _ _
      | failed _ | timedOut => rfl
    · rfl
  | handshakeLate =>
    dsimp only [Client.step]
    split
    · exact hclosing _ _ _
    · rfl
  | dropAttempt | dropClient => rfl
  | start n o =>
    dsimp only [Client.step, Client.start]
    split <;> rfl
  | link e =>
    dsimp only [Client.step]
    repeat' split
    · exact hgreeting _ _
    · exact hclosing _ _ _
    all_goals rfl

/-- The version that a client has read is kept. -/
theorem version_run (h : c.Inv) (hl : c.link = some l) (events : List Event) :
    (c.run events).version = c.version := by
  induction events generalizing c l with
  | nil => rfl
  | cons e events ih =>
    refine (ih (h.step e) (step_connected h hl e).1).trans ?_
    have ha := h.attempt_none hl
    cases e with
    | connect n credentials =>
      dsimp only [Client.step, Client.connect]
      repeat' split
      all_goals rfl
    | opened _ | handshakeLate => simp only [Client.step, ha]
    | dropAttempt | dropClient => rfl
    | start n o =>
      simp only [Client.step, Client.start, hl]
    | link e =>
      simp only [Client.step, ha, hl]
      split <;> rfl

/-- A client whose attempt is over and that has no connection can try again. -/
theorem Sane.unconnected (h : c.Sane) (hsettings : d.settings = c.settings)
    (ha : c.attempt.isSome = true) (hc : d.connecting = false) (hlink : d.link = none)
    (hv : d.version = none) : d.Unconnected := by
  refine ⟨by rw [isConnected, hlink]; rfl, hv, fun task o ho => ?_, fun task found => ?_⟩
  · have hstart : d.step (.start task o) = d.finish task (.error .notConnected) := by
      simp only [Client.step, Client.start, hlink, ho, ↓reduceIte]
    have hr : (d.finish task (.error .notConnected)).results.lookup task =
        some (.error .notConnected) := Table.lookup_insert_self
    simp only [hstart, result?, hr]
  · obtain ⟨hvalid, hurl⟩ := h.valid ha
    rw [← hsettings] at hvalid hurl
    have hfound : (d.settings.validate >>= fun _ => Except.ok found) = .ok found := by
      rw [hvalid]
      rfl
    show (d.connect task (.ok found)).attempt = _
    simp only [Client.connect, hc, hfound, hurl, Bool.false_eq_true, ↓reduceIte]

/-! ## An attempt that is left to itself comes to its end -/

theorem heeds_onward {e : Link.Event} (he : Link.Onward [e]) : c.Heeds task (.link e) := by
  rcases he e (by simp) with ⟨a, rfl⟩ | rfl
  · refine ⟨⟨by simp, ?_⟩, fun _ _ _ => ⟨by simp, fun w eager hw => ?_⟩⟩
    · cases a <;> rintro ⟨⟩
    · cases a <;> cases hw
      exact ⟨by simp, by simp⟩
  · exact ⟨⟨by simp, by simp⟩, fun _ _ _ => ⟨by simp, by simp⟩⟩

theorem isOfLink_onward {e : Link.Event} (he : Link.Onward [e]) : isOfLink e = true := by
  rcases he e (by simp) with ⟨a, rfl⟩ | rfl
  · cases a <;> rfl
  · rfl

theorem answerTo?_onward {e : Link.Event} (he : Link.Onward [e]) :
    c.answerTo? (.link e) = none := by
  unfold answerTo?
  split
  · rename_i hlink
    cases hlink
    split
    · rcases he e (by simp) with ⟨a, rfl⟩ | rfl
      · exact Link.answerTo?_of_turn (Link.resumeOf_actor a .written false)
      · exact Link.answerTo?_of_turn (a := .reader) rfl
    · rfl
  · rfl

theorem Underway.cons (he : c.Heeds task e) (hno : ∀ r, ¬ c.Ends e task r)
    (h : (c.step e).Underway task events) : c.Underway task (e :: events) := by
  rintro (_ | ⟨e', before⟩) d after heq
  · cases heq
    exact ⟨he, hno⟩
  · cases heq
    exact h before d after rfl

theorem Stands.not_ends (h : (c.step e).Stands task told) (r : Result) : ¬ c.Ends e task r := by
  rintro ⟨-, -, hnone, -⟩
  obtain ⟨stage, hsome⟩ := h.attempting
  rw [hnone] at hsome
  cases hsome

theorem ComesToEnd.cons {e : Link.Event} (he : Link.Onward [e])
    (hs : (c.step (.link e)).Stands task told) (h : (c.step (.link e)).ComesToEnd task told) :
    c.ComesToEnd task told := by
  obtain ⟨later, last, r, honward, hunder, hheeds, hend, hsettles⟩ := h
  refine ⟨e :: later, last, r, ?_, .cons (heeds_onward he) hs.not_ends hunder, hheeds, hend,
    hsettles⟩
  intro d hd
  rcases List.mem_cons.1 hd with rfl | hd
  · exact he d (by simp)
  · exact honward d hd

theorem ComesToEnd.last {e : Link.Event} (he : Link.Onward [e]) (hend : c.Ends (.link e) task r)
    (hs : Settles told r) : c.ComesToEnd task told :=
  ⟨[], e, r, he, fun before _ _ h => (by cases before <;> cases h), heeds_onward he, hend, hs⟩

/-- A close that has begun is finished. -/
theorem Stands.closing_comes_to_end (ha : c.attempt = some ⟨task, .closing l why⟩)
    (hl : l.ClosedBy task) (hr : l.results.lookup task = none) (hv : Verdict told (.error why)) :
    c.ComesToEnd task told := by
  -- the induction is on what is left to do on the connection
  induction hn : l.leftToDo task using Nat.strongRecOn generalizing c l with
  | ind n ih =>
    subst hn
    obtain ⟨e, he, hlt⟩ := hl.goes_on hr
    have hof := isOfLink_onward he
    have hstep : c.step (.link e) = c.continueClosing task (l.step e) why := by
      simp only [Client.step, hof, ha, ↓reduceIte]
    have hcourse := (Stands.closing ha hl hr hv).link hof (heeds_onward he)
    rw [answerTo?_onward he, Option.toList_none, List.append_nil] at hcourse
    cases hcourse with
    | succeeds hend hv => exact .last he hend (settles_of_version hv).1
    | fails hend hv => exact .last he hend (settles_of_error hv)
    | goesOn hs =>
      refine .cons he hs ?_
      cases hout : (l.step e).results.lookup task with
      | some out =>
        obtain ⟨stage, hgoing⟩ := hs.attempting
        rw [hstep, continueClosing, hout] at hgoing
        cases hgoing
      | none =>
        have hgoing : (c.step (.link e)).attempt = some ⟨task, .closing (l.step e) why⟩ := by
          rw [hstep, continueClosing, hout]
        exact ih _ hlt hgoing (hl.event (within_of_isOfLink hof
          fun hd => (heeds_onward (c := c) he).kept.2 (by rw [hd]))) hout rfl

/-- A handshake that is over goes on to close, if at all. -/
theorem Stands.closing_of_over (hs : (c.continueGreeting task l).Stands task told)
    (hr : l.results.lookup task ≠ none) : ∃ m why,
    (c.continueGreeting task l).attempt = some ⟨task, .closing m why⟩ := by
  cases hs with
  | closing ha => exact ⟨_, _, ha⟩
  | @greeting m ha hl hnone =>
    exfalso
    unfold continueGreeting at ha
    split at ha
    · rename_i hno
      exact hr hno
    · unfold closeAttempt continueClosing at ha
      dsimp only at ha
      split at ha <;> cases ha
    · cases ha
    · cases ha
      exact hr hnone

/-- A handshake that has nothing to wait for comes to its end. -/
theorem Stands.greeting_comes_to_end (ha : c.attempt = some ⟨task, .greeting l⟩)
    (hl : Greets l task told) (hr : l.results.lookup task = none)
    (hdone : Decides told ∨ l.isOpen = false) : c.ComesToEnd task told := by
  have he : Link.Onward [.resume task .written false] := Link.onward_resume (.caller task)
  obtain ⟨-, out, hout⟩ := hl.stands.comes_to_end hl.unforced hl.alone
    (hdone.imp (·.not_follows) fun hopen => by
      rintro hclosed
      simp [Link.isOpen, hclosed] at hopen)
  have hstep : c.step (.link (.resume task .written false)) =
      c.continueGreeting task (l.step (.resume task .written false)) := by
    simp only [Client.step, isOfLink_onward he, ha, ↓reduceIte]
  have hcourse := (Stands.greeting ha hl hr).link (isOfLink_onward he) (heeds_onward he)
  rw [answerTo?_onward he, Option.toList_none, List.append_nil] at hcourse
  cases hcourse with
  | succeeds hend hv => exact .last he hend (settles_of_version hv).1
  | fails hend hv => exact .last he hend (settles_of_error hv)
  | goesOn hs =>
    refine .cons he hs ?_
    rw [hstep] at hs ⊢
    obtain ⟨m, why, hclosing⟩ := hs.closing_of_over (by rw [hout]; simp)
    cases hs with
    | greeting ha => cases hclosing.symm.trans ha
    | closing ha hl hr hv => exact closing_comes_to_end ha hl hr hv

theorem Stands.comes_to_end (h : c.Stands task told) (hdone : Decides told ∨
    ∀ l, c.attempt = some ⟨task, .greeting l⟩ → l.isOpen = false) : c.ComesToEnd task told := by
  cases h with
  | greeting ha hl hr => exact greeting_comes_to_end ha hl hr (hdone.imp_right fun h => h _ ha)
  | closing ha hl hr hv => exact closing_comes_to_end ha hl hr hv

/-! ## Connecting -/

/-- When the time for the handshake is over, the attempt ends or goes on to close. -/
theorem Stands.late_comes_to_end (h : c.Stands task told) (he : c.Heeds task .handshakeLate) :
    (∃ r, c.Ends .handshakeLate task r) ∨ (c.step .handshakeLate).ComesToEnd task told := by
  have hlate : ∀ l, (c.step .handshakeLate).attempt ≠ some ⟨task, .greeting l⟩ := by
    intro l
    cases h with
    | greeting ha =>
      simp only [Client.step, ha, closeAttempt, continueClosing]
      split <;> simp [failAttempt, finish]
    | closing ha => simp [Client.step, ha]
  cases h.late he with
  | goesOn hs => exact .inr (hs.comes_to_end (.inr fun l hl => absurd hl (hlate l)))
  | succeeds hend | fails hend => exact .inl ⟨_, hend⟩

/-- What is over once an attempt ends. -/
theorem Stands.ends (h : c.Stands task told) (hr : c.Reachable) (he : c.Heeds task e)
    (hend : c.Ends e task r) : Settles (told ++ (c.answerTo? e).toList) r ∧
    (r = .ok .done → ∃ b v, (Method.systemVersion, b) ∈ told ++ (c.answerTo? e).toList ∧
      b.Dates v ∧ ∀ later, ((c.step e).run later).version = some v) ∧
    ∀ why, r = .error why → (c.step e).Unconnected ∧ ∃ m, c.LeavesBehind e m ∧ m.TornDown := by
  have hi := hr.inv
  have hsame : ∀ r', c.Ends e task r' → r' = r := fun r' he' =>
    Option.some.inj (he'.2.2.2.symm.trans hend.2.2.2)
  cases h.step hi he with
  | goesOn hs => exact absurd hend (hs.not_ends r)
  | @succeeds v he hv hversion =>
    obtain rfl := hsame _ he
    obtain ⟨hsettles, a, b, htold, -, hdates⟩ := settles_of_version hv
    refine ⟨hsettles, fun _ => ⟨b, v, by simp [htold], hdates, fun later => ?_⟩, by rintro _ ⟨⟩⟩
    have hs : c.Succeeds e := ⟨task, he⟩
    obtain ⟨l, hl⟩ := Option.isSome_iff_exists.1 (hs.link hr.ownErrors)
    exact (version_run (hi.step e) hl later).trans hversion
  | @fails why he hv hlink hm =>
    obtain rfl := hsame _ he
    obtain ⟨stage, ha⟩ := h.attempting
    obtain ⟨-, hl⟩ := hi.attempting (by rw [ha]; rfl)
    obtain ⟨hlink, hc, hversion⟩ := hlink
    refine ⟨settles_of_error hv, by rintro ⟨⟩, fun _ _ => ⟨?_, hm⟩⟩
    exact hr.sane.unconnected (settings_step c e) (by rw [ha]; rfl) hc (hlink.trans hl)
      (hversion.trans (hr.sane.version_none hl))

variable {credentials : Credentials}

/-- **What a handshake comes to.** An attempt to connect whose socket has opened is left to itself.
When it ends, its result is what the server's answers say: it succeeds exactly when the login was
accepted and then a version stated, which the client keeps for good; a login that is refused, a
version that cannot be read, an error in its place and silence each have their error. When it fails,
nothing is left of its connection, and the client is as if it had not tried. Once the answers decide
or the connection has ended, it comes to its end, if everybody goes on, and so it does once the time
for the handshake is over. -/
theorem handshake_admits_logins_with_versions (h : c.Reachable)
    (ha : c.attempt = some ⟨task, .opening credentials⟩)
    (hu : (c.step (.opened .opened)).Underway task events) :
    let d := (c.step (.opened .opened)).run events
    let told := (c.step (.opened .opened)).told events
    (∀ e r, d.Heeds task e → d.Ends e task r →
      Settles (told ++ (d.answerTo? e).toList) r ∧
      (r = .ok .done → ∃ b v, (Method.systemVersion, b) ∈ told ++ (d.answerTo? e).toList ∧
        b.Dates v ∧ ∀ later, ((d.step e).run later).version = some v) ∧
      ∀ why, r = .error why → (d.step e).Unconnected ∧ ∃ m, d.LeavesBehind e m ∧ m.TornDown) ∧
    ((Decides told ∨ ∀ l, d.attempt = some ⟨task, .greeting l⟩ → l.isOpen = false) →
      d.ComesToEnd task told) ∧
    (d.Heeds task .handshakeLate →
      (∃ r, d.Ends .handshakeLate task r) ∨ (d.step .handshakeLate).ComesToEnd task told) := by
  have hopened := h.step (.opened .opened)
  have hs := (Stands.opened ha).run hopened.inv hu
  rw [List.nil_append] at hs
  exact ⟨fun e r he hend => hs.ends (hopened.run events) he hend, hs.comes_to_end,
    hs.late_comes_to_end⟩

/-! ## A visitor who is let in -/

/-- Nothing that a connection does by itself begins an attempt. -/
theorem attempt_links (ha : c.attempt = none) (later : List Link.Event) :
    (c.run (later.map .link)).attempt = none := by
  induction later generalizing c with
  | nil => exact ha
  | cons e later ih =>
    refine ih (c := c.step (.link e)) ?_
    simp only [Client.step, ha]
    split
    · cases hl : c.link with
      | none => exact ha
      | some l => rfl
    · exact ha

theorem underway_of_links {later : List Link.Event}
    (hheeds : ∀ d : Client, ∀ e ∈ later, d.Heeds task (.link e))
    (hgoing : (c.run (later.map .link)).attempt.isSome = true) :
    c.Underway task (later.map .link) := by
  intro before e after heq
  obtain ⟨first, rest, rfl, rfl, hrest⟩ := List.map_eq_append_iff.1 heq
  obtain ⟨e, last, rfl, rfl, rfl⟩ := List.map_eq_cons_iff.1 hrest
  refine ⟨hheeds _ e (by simp), fun r hend => ?_⟩
  have hnone := attempt_links hend.2.2.1 last
  rw [← run_concat, ← run_append] at hnone
  rw [heq, List.append_cons] at hgoing
  rw [hnone] at hgoing
  cases hgoing

/-- What happens on the connection until the second answer is there to see. -/
def welcome : List Link.Event :=
  [.resume 1 .written false, .receive (.text granted), .resume 1 .nothing false,
    .resume 1 .written false, .receive (.text dated)]

theorem run_welcome : ∃ l m,
    (((ofSettings named).step (.connect 1 (.ok visitor))).step (.opened .opened)).run
      (welcome.map .link) = greeting l ∧
    (greeting l).step (.link (.resume 1 .nothing false)) = visiting m := by
  obtain ⟨text, hlogin⟩ := run_login
  have hanswered := run_answered (l := atVersion text) says_dated (by cbv) (by cbv)
  have hgreeted : (greeted text).results = [(1, .ok (.version ⟨25, 4⟩))] := by cbv
  refine ⟨_, _, ?_, (step_greeting _ rfl).trans (continueGreeting_version hgreeted)⟩
  rw [← hanswered, ← hlogin, ← run_append]
  rfl

theorem visitor_is_let_in :
    let c := (ofSettings named).step (.connect 1 (.ok visitor))
    let d := (c.step (.opened .opened)).run (welcome.map .link)
    c.Reachable ∧ c.attempt = some ⟨1, .opening visitor⟩ ∧
    (c.step (.opened .opened)).Underway 1 (welcome.map .link) ∧
    d.Ends (.link (.resume 1 .nothing false)) 1 (.ok .done) ∧
    ∀ later, ((d.step (.link (.resume 1 .nothing false))).run later).version = some ⟨25, 4⟩ := by
  intro c d
  have hr : c.Reachable := ⟨named, [.connect 1 (.ok visitor)], rfl⟩
  have ha : c.attempt = some ⟨1, .opening visitor⟩ := congrArg (·.attempt) step_connect_visitor
  obtain ⟨l, m, hrun, hlast⟩ := run_welcome
  have hd : d = greeting l := hrun
  have hu : (c.step (.opened .opened)).Underway 1 (welcome.map .link) := by
    refine underway_of_links (fun d e he => ?_) (by rw [hrun]; rfl)
    simp only [welcome, List.mem_cons, List.not_mem_nil, or_false] at he
    rcases he with rfl | rfl | rfl | rfl | rfl <;>
      exact ⟨by simp, fun _ _ _ => by simp⟩
  have hheeds : d.Heeds 1 (.link (.resume 1 .nothing false)) :=
    ⟨by simp, fun _ _ _ => by simp⟩
  have hend : d.Ends (.link (.resume 1 .nothing false)) 1 (.ok .done) := by
    rw [hd]
    refine ⟨⟨_, rfl⟩, by simp, ?_, ?_⟩ <;> rw [hlast] <;> rfl
  refine ⟨hr, ha, hu, hend, ?_⟩
  obtain ⟨b, v, -, -, hkept⟩ :=
    ((handshake_admits_logins_with_versions hr ha hu).1 _ _ hheeds hend).2.1 rfl
  have hversion : (d.step (.link (.resume 1 .nothing false))).version = some ⟨25, 4⟩ := by
    rw [hd, hlast]
    rfl
  have hv : (d.step (.link (.resume 1 .nothing false))).version = some v := hkept []
  cases hv.symm.trans hversion
  exact hkept

end ServerLink.Client
