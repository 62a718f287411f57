import ServerLink.Proofs.Link.Subscribing

/-!
# Subscribing

A task that subscribes gets a subscription that has missed nothing since the start, or leaves
nothing behind (`subscribing_is_all_or_nothing`). But a change that the reader still takes after the
end of the connection is lost to a subscription that is returned later
(`change_after_the_end_is_lost`).
-/

namespace ServerLink.Link

open Fanout (Untouched)

/-- Since it began to subscribe a task has been waiting, while these events happened. -/
structure Midway (l : Link) (es : List Event) (task : Nat) (s : Subscription) (id capacity : Nat) :
    Prop where
  waits : ∃ x, (l.run es).Subscribing task s x ∧ x.id = id ∧ x.kind = .plain
  latest : (l.run es).Latest s capacity (changes s.collection (l.dispatched (l.untilEnd es)))
  answered : ∀ v, (l.run es).slots.lookup id = some (.filled (.ok v)) →
    ∃ r, .answer r ∈ l.dispatched es ∧ r.id = id ∧ r.outcome = .ok v

/-- By these events a task has got the subscription that the server has accepted. -/
structure Returned (l : Link) (es : List Event) (task : Nat) (s : Subscription)
    (id capacity : Nat) : Prop where
  ended : (l.run es).tasks.lookup task = none
  result : (l.run es).results.lookup task = some (.ok (.subscription s))
  accepted : ∃ r, .answer r ∈ l.dispatched es ∧ r.id = id ∧ r.error = none ∧
    (r.result = .bool true ∨ ∃ name, r.result = .string name ∧ name ≠ "")
  shows : (l.run es).Latest s capacity (changes s.collection (l.dispatched (l.untilEnd es)))
  uncalled : (l.run es).Gone id

/-- Nothing is left of what a task has done that has no subscription. -/
structure Unsubscribed (l : Link) (task : Nat) (s : Subscription) (id : Nat) : Prop where
  ended : l.tasks.lookup task = none
  result : ∀ reply, l.results.lookup task ≠ some (.ok reply)
  unlisted : ∀ c, s.key ∉ l.fanout.subscribers c
  unboxed : l.fanout.mailboxes.lookup s.key = none
  uncalled : l.Gone id

variable {l m : Link} {x : Exchange} {s : Subscription} {task id n : Nat} {e : Event}
  {es : List Event}

/-- When a task is over, its call is gone. -/
theorem gone_of_over (hl : l.Tidy) (ha : e.actor? = some (.caller task))
    (hothers : ∀ b y, b ≠ .caller task → l.callOf b = some y → y.id ≠ id)
    (ht : (l.step e).tasks.lookup task = none) : (l.step e).Gone id := by
  refine gone_of_not_known ((hl.event e).not_known fun b y hy => ?_)
  by_cases hb : b = .caller task
  · subst hb
    rw [callOf, ht] at hy
    cases hy
  · have hplace : SamePlace l (l.step e) b := Deeds.others (step_turn ha) hb
    exact hothers b y hb ((callOf_eq hplace).symm.trans hy)

/-! ## Events -/

namespace Midway

section
variable (hm : l.Midway es task s id n) (hl : l.Tidy)
include hm hl

theorem others_call {b : Actor} {y : Exchange} (hb : b ≠ .caller task)
    (hy : (l.run es).callOf b = some y) : y.id ≠ id := by
  obtain ⟨x, hs, rfl, -⟩ := hm.waits
  intro he
  exact hb ((hl.run es).owned.once b _ x.id y.kind x.kind (he ▸ call_of_callOf hy)
    (call_of_callOf hs.call))

theorem others_subscription {a : Actor} (ha : a ≠ .caller task) {t : Subscription}
    (ht : ((l.run es).hand a).subscription = some t) : t.key ≠ s.key := by
  obtain ⟨x, hs, -⟩ := hm.waits
  intro he
  exact ha ((hl.run es).keyed.once a _ t s ht hs.inHand he)

/-- A task goes on waiting while others act. -/
theorem other (hi : l.Inv) (ha : e.actor? ≠ some (.caller task))
    (hact : ∀ t act, e = .subscriber t act → t.key ≠ s.key) :
    l.Midway (es ++ [e]) task s id n := by
  obtain ⟨x, hs, hid, hkind⟩ := hm.waits
  have hrun : l.run (es ++ [e]) = (l.run es).step e := run_append l es [e]
  refine ⟨⟨x, ?_, hid, hkind⟩, ?_, fun v hv => ?_⟩
  · rw [hrun]
    exact hs.congr (step_others ha)
  · rw [hrun, dispatched_untilEnd hi, changes_append]
    refine latest_event hm.latest (fun a hactor t ht => ?_) hact
    exact hm.others_subscription hl (fun he => ha (he ▸ hactor)) ht
  · rw [hrun, ← hid] at hv
    rw [dispatched_append]
    rcases slot_answered (hl.run es) hs.call hkind hv with hold | ⟨r, hr, hrid, ho⟩
    · obtain ⟨r, hr, hrest⟩ := hm.answered v (hid ▸ hold)
      exact ⟨r, List.mem_append_left _ hr, hrest⟩
    · exact ⟨r, List.mem_append_right _ (by simp [hr]), hrid.trans hid, ho⟩

/-- By a turn of its own a task goes on waiting, gets the subscription or leaves nothing. -/
theorem own (hi : l.Inv) (ha : e.actor? = some (.caller task)) :
    l.Midway (es ++ [e]) task s id n ∨ l.Returned (es ++ [e]) task s id n ∨
      (l.run (es ++ [e])).Unsubscribed task s id := by
  obtain ⟨x, hs, rfl, hkind⟩ := hm.waits
  have hrun : l.run (es ++ [e]) = (l.run es).step e := run_append l es [e]
  have hall : l.dispatched (es ++ [e]) = l.dispatched es := by
    rw [dispatched_append, dispatched?_of_turn ha]
    exact List.append_nil _
  have huntil : l.dispatched (l.untilEnd (es ++ [e])) = l.dispatched (l.untilEnd es) := by
    rw [dispatched_untilEnd hi, dispatched?_of_turn ha]
    simp
  have hgone : ((l.run es).step e).tasks.lookup task = none → ((l.run es).step e).Gone x.id :=
    gone_of_over (hl.run es) ha fun b y hb hy => hm.others_call hl hb hy
  cases hs.own_turn ha with
  | going hs' hid hkind' hf hslots hc =>
    refine .inl ⟨⟨_, hrun ▸ hs', hid, hkind'.trans hkind⟩, ?_, fun v hv => ?_⟩
    · rw [hrun, huntil]
      exact hm.latest.congr hf hc
    · rw [hrun, hslots] at hv
      rw [hall]
      exact hm.answered v hv
  | @accepted v hv hslot ht hr hf hc =>
    obtain ⟨r, hr', hid, ho⟩ := hm.answered v hslot
    refine .inr (.inl ⟨hrun ▸ ht, hrun ▸ hr, ⟨r, hall ▸ hr', hid, ?_⟩, ?_, hrun ▸ hgone ht⟩)
    · unfold Response.outcome at ho
      cases he : r.error with
      | some e => rw [he] at ho; cases ho
      | none =>
        rw [he] at ho
        cases ho
        exact ⟨rfl, accepts_of_acknowledges hv⟩
    · rw [hrun, huntil]
      exact hm.latest.congr hf hc
  | failed ht hr hf hc =>
    obtain ⟨hlisted, hbox⟩ := Fanout.Follows.discard_gone hm.latest
    rw [← hf] at hlisted hbox
    exact .inr (.inr (hrun ▸ ⟨ht, hr, hlisted, hbox, hgone ht⟩))
  | unwritten ht hr hf hc =>
    obtain ⟨hlisted, hbox⟩ := Fanout.Follows.discard_gone (hm.latest.teardown _)
    rw [← hf] at hlisted hbox
    refine .inr (.inr (hrun ▸ ⟨ht, fun r hr' => ?_, hlisted, hbox, hgone ht⟩))
    cases hr.symm.trans hr'

end

end Midway

/-! ## Runs -/

section
variable (hl : l.Reachable) (hu : l.isUsed task = false) (c : String) (filter : Json)
include hl hu

/-- A task that starts to subscribe waits, or leaves nothing. -/
theorem midway_start :
    (l.step (.start task (.subscribe c filter))).Midway [] task ⟨c, l.fanout.lastKey + 1⟩
        l.calls.nextId (max l.settings.capacity 1) ∨
      (l.step (.start task (.subscribe c filter))).Unsubscribed task ⟨c, l.fanout.lastKey + 1⟩
        l.calls.nextId := by
  have ht := hl.tidy
  have hnew : ¬ l.Known l.calls.nextId := fun hk => Nat.lt_irrefl _ (ht.owned.admitted _ hk)
  cases start_started hl.inv.fanout hu c filter with
  | going hs hid hkind hslots hlatest hc =>
    refine .inl ⟨⟨_, hs, hid, hkind⟩, hlatest, fun v hv => ?_⟩
    exact absurd (.inr (by rw [← hslots]; exact Option.isSome_of_eq_some hv)) hnew
  | failed hover hr hlisted hbox hc =>
    refine .inr ⟨hover, hr, hlisted, hbox, gone_of_over ht rfl (fun b y _ hy he => ?_) hover⟩
    exact hnew (he ▸ ht.known_of_callOf hy)

end

/-- What has become of a task that waited when these events began. -/
theorem Midway.run (hi : l.Inv) (hl : l.Tidy) (hm : l.Midway [] task s id n) (es : List Event)
    (hact : ∀ t act, .subscriber t act ∈ es → t.key ≠ s.key) :
    l.Midway es task s id n ∨ ∃ before e after, es = before ++ e :: after ∧
      e.actor? = some (.caller task) ∧ l.Midway before task s id n ∧
      (l.Returned (before ++ [e]) task s id n ∨
        (l.run (before ++ [e])).Unsubscribed task s id) := by
  -- on the last event, since what was dispatched counts from the start
  induction es using List.reverseRecOn with
  | nil => exact .inl hm
  | append_singleton es e ih =>
    have hbefore : ∀ t act, .subscriber t act ∈ es → t.key ≠ s.key := fun t act ht =>
      hact t act (List.mem_append_left _ ht)
    rcases ih hbefore with hes | ⟨before, d, after, rfl, hover⟩
    · by_cases ha : e.actor? = some (.caller task)
      · rcases hes.own hl hi ha with hgoing | hended
        · exact .inl hgoing
        · exact .inr ⟨es, e, [], rfl, ha, hes, hended⟩
      · exact .inl (hes.other hl hi ha fun t act he => hact t act (by simp [he]))
    · exact .inr ⟨before, d, after ++ [e], by simp, hover⟩

/-- **Subscribing is all or nothing.** Whatever happens between, a task that starts to subscribe
waits until it has got the subscription, or nothing is left of what it has done. It gets the
subscription only if the server has answered true or a name; the subscription shows then the latest
changes of its collection, in order, that the reader has dispatched since the start while the
connection was open, and how many more there were. And no turn of the task touches another
subscription, unless its own write has failed and ends the connection; nor does an answer that comes
for it. -/
theorem subscribing_is_all_or_nothing (hl : l.Reachable) (hu : l.isUsed task = false) (c : String)
    (filter : Json) :
    let s : Subscription := ⟨c, l.fanout.lastKey + 1⟩
    let m := l.step (.start task (.subscribe c filter))
    ((∃ x, m.Subscribing task s x) ∨ m.Unsubscribed task s l.calls.nextId) ∧
    m.calls.closed = l.calls.closed ∧
    (∀ k ≤ l.fanout.lastKey, Untouched l.fanout m.fanout k) ∧
    ((∃ x, m.Subscribing task s x) →
      ∀ es, (∀ t act, .subscriber t act ∈ es → t.key ≠ s.key) →
        (∃ x, (m.run es).Subscribing task s x) ∨
        ∃ before e after, es = before ++ e :: after ∧ e.actor? = some (.caller task) ∧
          (∃ x, (m.run before).Subscribing task s x) ∧
          (m.Returned (before ++ [e]) task s l.calls.nextId (max l.settings.capacity 1) ∨
            (m.run (before ++ [e])).Unsubscribed task s l.calls.nextId)) ∧
    (∀ es e r, (m.run es).dispatched? e = some (.answer r) →
      ((m.run es).step e).fanout = (m.run es).fanout) ∧
    ∀ es x e, (m.run es).Subscribing task s x → e.actor? = some (.caller task) →
      (((m.run es).step e).calls.closed = (m.run es).calls.closed ∧
        ∀ k ≤ (m.run es).fanout.lastKey, k ≠ s.key →
          Untouched (m.run es).fanout ((m.run es).step e).fanout k) ∨
      ∃ text, ((m.run es).step e).calls.closed = some (.transport text) ∧
        ((m.run es).step e).results.lookup task = some (.error (.transport text)) := by
  intro s m
  have hstart := midway_start hl hu c filter
  have hclosed : m.calls.closed = l.calls.closed := by
    cases start_started hl.inv.fanout hu c filter with
    | going _ _ _ _ _ hc | failed _ _ _ _ hc => exact hc
  refine ⟨?_, hclosed, fun k hk => ?_, fun ⟨x, hx⟩ es hact => ?_,
    fun es e r hr => fanout_of_answer hr, fun es x e hs ha => hs.siblings ha⟩
  · exact hstart.imp_left fun hm => hm.waits.imp fun _ h => h.1
  · refine Deeds.untouched (step_turn rfl) hclosed hk fun t ht => ?_
    rw [hand_of_lookup_none (lookup_of_not_isUsed (by simp [hu]))] at ht
    cases ht
  · have hm : m.Midway [] task s l.calls.nextId (max l.settings.capacity 1) := by
      refine hstart.resolve_right fun hu => ?_
      cases hx.waits.symm.trans hu.ended
    refine (hm.run (hl.inv.event _) (hl.tidy.event _) es hact).imp (fun hm => ?_) ?_
    · exact hm.waits.imp fun _ h => h.1
    · rintro ⟨before, e, after, he, ha, hm, hended⟩
      exact ⟨before, e, after, he, ha, hm.waits.imp fun _ h => h.1, hended⟩

/-! ## A change before the answer, and one after the end -/

section
variable {text : String} {f : Frame} {o : Op} (es : List Event)
  (hr : (l.run es).reader = .running) (hs : Frame.Says text f) (ho : Op.ofFrame? f = some o)
  (later : List Event)
include hr hs ho

theorem run_said : l.run (es ++ .receive (.text text) :: later) =
    ((l.run es).perform o).run later := by
  rw [run_append]
  show ((l.run es).step (.receive (.text text))).run later = _
  rw [step_receive hr hs, ho, Option.map_some, Option.getD_some]

theorem dispatched_said : l.dispatched (es ++ .receive (.text text) :: later) =
    l.dispatched es ++ o :: ((l.run es).perform o).dispatched later := by
  induction es generalizing l with
  | nil =>
    have hr : l.reader = .running := hr
    simp only [List.nil_append, dispatched, dispatched?, hr, ↓reduceIte, Inbound.frame?,
      Option.bind_some, ofText?_of_said hs, step_receive hr hs, ho]
    rfl
  | cons e es ih =>
    simp only [List.cons_append, dispatched, ih hr, List.append_assoc]
    rfl

end

theorem says_accepted : Frame.Says accepted (.answer { id := 1, result := .bool true }) :=
  .answer reads_accepted rfl

/-- A connection on which a task writes its first request, to subscribe. -/
def poolAsked (frame : String) : Link :=
  { settings := {}, calls := { nextId := 2, pending := [(1, .plain)] },
    fanout := { channels := [("pool", [1])], lastKey := 1, mailboxes := [(1, { capacity := 64 })] },
    line := [.caller 1], sent := [frame],
    tasks := [(1, .subscribe ⟨"pool", 1⟩ ⟨1, Method.subscribe, .plain, frame, .writing⟩)] }

theorem start_poolAsked : ∃ frame,
    (ofSettings {}).step (.start 1 (.subscribe "pool" .null)) = poolAsked frame := ⟨_, by cbv⟩

/-- A change comes while the request is being written, and then the server accepts. -/
def pooled : List Event :=
  [.receive (.text poolChanged), .resume 1 .written false, .receive (.text accepted),
    .resume 1 .nothing false]

theorem run_pooled (frame : String) : (((poolAsked frame).run pooled).results,
    ((poolAsked frame).run pooled).fanout.mailboxes) =
      ([(1, .ok (.subscription ⟨"pool", 1⟩))],
        [(1, { values := [.ofNat 5], capacity := 64, permit := true })]) := by
  have hrun : (poolAsked frame).run pooled = _ :=
    (run_said [] rfl says_poolChanged rfl _).trans
      (run_said [.resume 1 .written false] (by cbv) says_accepted rfl [.resume 1 .nothing false])
  rw [hrun]
  cbv

theorem pool_subscription_holds_the_change :
    (ofSettings {}).Reachable ∧ (ofSettings {}).isUsed 1 = false ∧
    (∀ t act, .subscriber t act ∈ pooled → t.key ≠ 1) ∧
    ((ofSettings {}).step (.start 1 (.subscribe "pool" .null))).Returned pooled 1 ⟨"pool", 1⟩ 1 64 ∧
    ∃ b, (((ofSettings {}).step (.start 1 (.subscribe "pool" .null))).run
      pooled).fanout.mailboxes.lookup 1 = some b ∧ b.values = [.ofNat 5] := by
  have hl : (ofSettings {}).Reachable := ⟨{}, [], rfl⟩
  have hno : ∀ t act, .subscriber t act ∈ pooled → t.key ≠ 1 := by simp [pooled]
  obtain ⟨hstart, -, -, hends, -, -⟩ := subscribing_is_all_or_nothing hl rfl "pool" .null
  obtain ⟨frame, hm⟩ := start_poolAsked
  rw [hm] at hstart hends ⊢
  obtain ⟨hresults, hboxes⟩ := Prod.mk.inj (run_pooled frame)
  have hresult : ((poolAsked frame).run pooled).results.lookup 1 =
      some (.ok (.subscription ⟨"pool", 1⟩)) := by
    rw [hresults]
    rfl
  refine ⟨hl, rfl, hno, ?_, by rw [hboxes]; exact ⟨_, rfl, rfl⟩⟩
  have hstart := hstart.resolve_right fun h => by cases h.ended
  rcases hends hstart pooled hno with ⟨x, hx⟩ | ⟨before, e, after, he, ha, -, hended⟩
  · cases hx.untold.symm.trans hresult
  · -- the task acts twice, and goes on waiting the first time
    match before, he with
    | [], he => cases he; cases ha
    | [_], he =>
      cases he
      have hover : ((poolAsked frame).run (pooled.take 2)).tasks.lookup 1 = none :=
        hended.elim (·.ended) (·.ended)
      rw [show (poolAsked frame).run (pooled.take 2) = _ from
        run_said [] rfl says_poolChanged rfl [.resume 1 .written false]] at hover
      cases hover
    | [_, _], he => cases he; cases ha
    | [_, _, _], he =>
      cases he
      exact hended.resolve_right fun h => h.result _ hresult
    | _ :: _ :: _ :: _ :: _, he => simp [pooled] at he

/-- The server accepts, and a change comes when another caller has closed the connection and the
reader has not seen it yet. -/
def parting : List Event :=
  [.resume 1 .written false, .receive (.text accepted), .start 2 .close,
    .receive (.text poolChanged), .resume 1 .nothing false]

theorem run_parting (frame : String) : (((poolAsked frame).run parting).results,
    ((poolAsked frame).run parting).fanout.mailboxes) =
      ([(1, .ok (.subscription ⟨"pool", 1⟩))],
        [(1, { values := [], capacity := 64, closed := true, permit := true })]) := by
  have hrun : (poolAsked frame).run parting = _ :=
    (run_said [.resume 1 .written false] rfl says_accepted rfl _).trans
      (run_said [.start 2 .close] (by cbv) says_poolChanged rfl [.resume 1 .nothing false])
  rw [hrun]
  cbv

theorem changes_parting (frame : String) :
    changes "pool" ((poolAsked frame).dispatched parting) = [.ofNat 5] := by
  rw [show parting = [.resume 1 .written false] ++ .receive (.text accepted) ::
    ([.start 2 .close] ++ .receive (.text poolChanged) :: [.resume 1 .nothing false]) from rfl,
    dispatched_said _ rfl says_accepted rfl, dispatched_said _ (by cbv) says_poolChanged rfl]
  rfl

/-- A change that the reader takes after the end of the connection comes to nobody, though the
subscription is returned later. -/
theorem change_after_the_end_is_lost :
    ¬ ∀ l : Link, l.Reachable → ∀ task, l.isUsed task = false → ∀ c filter es,
      (∀ t act, .subscriber t act ∈ es → t.key ≠ l.fanout.lastKey + 1) →
      ((l.step (.start task (.subscribe c filter))).run es).results.lookup task =
        some (.ok (.subscription ⟨c, l.fanout.lastKey + 1⟩)) →
      ((l.step (.start task (.subscribe c filter))).run es).Latest ⟨c, l.fanout.lastKey + 1⟩
        (max l.settings.capacity 1)
        (changes c ((l.step (.start task (.subscribe c filter))).dispatched es)) := by
  intro hall
  have hlatest := hall (ofSettings {}) ⟨{}, [], rfl⟩ 1 rfl "pool" .null parting (by simp [parting])
  obtain ⟨frame, hm⟩ := start_poolAsked
  obtain ⟨hresults, hboxes⟩ := Prod.mk.inj (run_parting frame)
  rw [hm, changes_parting] at hlatest
  obtain ⟨b, hb, hshows⟩ := (hlatest (by rw [hresults]; rfl)).box
  rw [Fanout.mailbox?, hboxes] at hb
  cases hb
  cases hshows.values

end ServerLink.Link
