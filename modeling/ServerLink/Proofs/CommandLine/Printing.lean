import ServerLink.CommandLine.Execution
import ServerLink.Proofs.Json.Lines
import ServerLink.Proofs.Output
import ServerLink.Proofs.Transport.Subscribers

/-!
# Printing events

The command that prints events stays with its subscription until it has printed as many events as
it was told, until the subscription ends, or until a write or a flush fails. Meanwhile other things
happen to the transport (`Pause`). What is printed is what the queue of the subscription yields, up
to the count (`first_events_are_printed`).
-/

namespace ServerLink.CommandLine

open Fanout (Spares Course)
open Transport (Serves)
open Json (lines onLines)

/-- What happens to the transport of a command until the command goes on, after some time. -/
structure Pause where
  events : List Gateway.Event
  milliseconds : Nat

namespace Execution

def after (e : Execution) (p : Pause) : Execution :=
  ({ e with transport := e.transport.run p.events }).resume p.milliseconds

def run (e : Execution) (ps : List Pause) : Execution := ps.foldl after e

/-- What happens in each pause is for the subscriptions of the transport what others do there. -/
inductive Sees (s : Subscription) : Execution → List Pause → List (List Fanout.Event) → Prop
  | nil (e : Execution) : Sees s e [] []
  | cons {e : Execution} {p : Pause} {ps : List Pause} {es : List Fanout.Event}
      {later : List (List Fanout.Event)} (hs : Spares s es)
      (hf : (e.transport.run p.events).fanout = e.transport.fanout.run es)
      (rest : Sees s (e.after p) ps later) : Sees s e (p :: ps) (es :: later)

/-- The command has this subscription and prints, or it is over. -/
def Prints (s : Subscription) (e : Execution) : Prop :=
  (∃ left, e.stage = .printing s left) ∨ ∃ outcome, e.stage = .over outcome

end Execution

/-- The values that are printed where `left` of them are to be printed, or all. -/
def limited (left : Option Nat) (vs : List Json) : List Json := left.elim vs (vs.take ·)

/-- How far a command has got that was to print `left` values, or all, after so many values, at the
end of its subscription or not. -/
def stageAfter (s : Subscription) (left : Option Nat) (count : Nat) (ended : Bool) :
    Execution.Stage :=
  if left.any (· ≤ count) || ended then .over (.ok ()) else .printing s (left.map (· - count))

/-- The lines of these values can be added to the output, and each of them flushed out. -/
structure Fit (o : Output) (vs : List Json) : Prop where
  room : vs = [] ∨ o.HasRoom (lines vs)
  flushes : o.CanFlush vs.length

/-- The output with the lines of some values, each flushed out but perhaps the last, and with part of
another line. -/
def withLines (o : Output) (whole : List Json) (part : String) : Output :=
  (o.add (lines whole ++ part)).flushed whole.length

/-- How printing comes out: the values that are printed whole, the part of a line behind them, the
values taken out of the mailbox, and how far the command has got. -/
inductive PrintOutcome (o : Output) (wanted : List Json) (stage : Execution.Stage) :
    (whole : List Json) → (part : String) → (taken : List Json) → Execution.Stage → Prop
  /-- All that is wanted is printed. -/
  | written (fit : Fit o wanted) :
      PrintOutcome o wanted stage wanted "" wanted stage
  /-- There is no room for the line of a value. -/
  | unwritten {before after : List Json} {v : Json} {part more : String}
      (hwanted : wanted = before ++ v :: after) (fit : Fit o before)
      (full : ¬ o.HasRoom (lines (before ++ [v]))) (hpart : part ++ more = v.render) :
      PrintOutcome o wanted stage before part (before ++ [v])
        (.over (.error (.io (.other "output closed"))))
  /-- The line of a value is there as a whole, and cannot be flushed out. -/
  | unflushed {before after : List Json} {v : Json}
      (hwanted : wanted = before ++ v :: after) (fit : Fit o before)
      (room : o.HasRoom (lines (before ++ [v]))) (stuck : ¬ o.CanFlush (before.length + 1)) :
      PrintOutcome o wanted stage (before ++ [v]) "" (before ++ [v])
        (.over (.error (.io (.other "output closed"))))

/-- From one state to another a command has printed what was wanted of the values that its
subscription yielded, while others did these things; its subscription is closed once it is over. -/
structure Printed (s : Subscription) (left : Option Nat) (yielded : List Json) (ended : Bool)
    (others : List Fanout.Event) (e last : Execution) : Prop where
  comes : ∃ whole part taken,
    PrintOutcome e.output (limited left yielded) (stageAfter s left yielded.length ended)
      whole part taken last.stage ∧
    last.output = withLines e.output whole part ∧
    Course e.transport.fanout last.transport.fanout s others taken
  serves : Serves s last.transport
  gone : ∀ outcome, last.stage = .over outcome →
    ∀ c, s.key ∉ last.transport.fanout.subscribers c

/-- A command has printed what was wanted of a queue; nothing is left there if it still prints. -/
structure PrintedAll (s : Subscription) (left : Option Nat) (q : Queue) (e last : Execution) :
    Prop where
  printed : Printed s left q.values q.closed [] e last
  follows : ∀ t rest, last.stage = .printing t rest → last.transport.fanout.Follows s q.emptied

variable {s : Subscription} {q : Queue} {e last : Execution} {left : Option Nat} {o : Output}
  {v : Json} {vs ws wanted whole taken : List Json} {part : String} {n m : Nat} {ended : Bool}
  {stage stage' : Execution.Stage} {es : List Fanout.Event} {ps : List Pause}
  {batches : List (List Fanout.Event)}

/-! ## Counts -/

@[simp] theorem limited_nil (left : Option Nat) : limited left [] = [] := by
  cases left <;> simp [limited]

theorem limited_append (left : Option Nat) (vs ws : List Json) :
    limited left (vs ++ ws) = limited left vs ++ limited (left.map (· - vs.length)) ws := by
  cases left with
  | none => rfl
  | some n => exact List.take_append

theorem limited_singleton (h : left ≠ some 0) (v : Json) : limited left [v] = [v] := by
  cases left with
  | none => rfl
  | some n => exact List.take_of_length_le (Nat.pos_of_ne_zero fun hn => h (congrArg some hn))

theorem limited_cons (h : left ≠ some 0) (v : Json) (vs : List Json) :
    limited left (v :: vs) = v :: limited (left.map (· - 1)) vs := by
  have := limited_append left [v] vs
  rwa [limited_singleton h] at this

@[simp] theorem stageAfter_ended (s : Subscription) (left : Option Nat) (n : Nat) :
    stageAfter s left n true = .over (.ok ()) := by
  simp [stageAfter]

theorem stageAfter_zero (h : left ≠ some 0) : stageAfter s left 0 false = .printing s left := by
  cases left with
  | none => rfl
  | some k =>
    have hk : k ≠ 0 := fun hk => h (congrArg some hk)
    simp [stageAfter, hk]

theorem stageAfter_add (s : Subscription) (left : Option Nat) (n m : Nat) (ended : Bool) :
    stageAfter s left (n + m) ended = stageAfter s (left.map (· - n)) m ended := by
  cases left with
  | none => rfl
  | some k =>
    have hle : k ≤ n + m ↔ k - n ≤ m := by omega
    simp only [stageAfter, Option.any_some, Option.map_some, hle, Nat.sub_add_eq]

/-- A command that still prints has printed all the values that there were. -/
theorem stageAfter_printing {t : Subscription} {rest : Option Nat}
    (h : stageAfter s left vs.length ended = .printing t rest) :
    ended = false ∧ rest = left.map (· - vs.length) ∧ limited left vs = vs := by
  unfold stageAfter at h
  split at h
  · cases h
  · rename_i going
    simp only [Bool.or_eq_true, not_or, Bool.not_eq_true] at going
    cases h
    refine ⟨going.2, rfl, ?_⟩
    cases left with
    | none => rfl
    | some k =>
      have hlt : vs.length < k := by simpa using going.1
      exact List.take_of_length_le (Nat.le_of_lt hlt)

theorem stageAfter_over {outcome : Except CommandError Unit}
    (h : stageAfter s left n ended = .over outcome) : ended = true ∨ ∃ k ≤ n, left = some k := by
  unfold stageAfter at h
  split at h
  · rename_i stopped
    refine (Bool.or_eq_true_iff.mp stopped).symm.imp_right fun hk => ?_
    obtain ⟨k, hk, hle⟩ := (Option.any_eq_true _ _).mp hk
    exact ⟨k, of_decide_eq_true hle, hk⟩
  · cases h

/-! ## Outcomes -/

theorem join_line (v : Json) : String.join (line v) = v.render ++ "\n" := by
  simp [line, String.join_append, Json.join_pieces]

theorem put_of_room (h : o.HasRoom (lines [v])) :
    put o (line v) = (.ok (), o.add (lines [v])) := by
  rw [Json.lines_singleton, ← join_line] at h ⊢
  rw [put, Output.writeAll_of_room h]
  rfl

/-- The last piece of a line is its line break, so there is none in a line that is broken off. -/
theorem put_of_no_room (h : ¬ o.HasRoom (lines [v])) :
    ∃ part more, part ++ more = v.render ∧
      put o (line v) = (.error (.io (.other "output closed")), o.add part) := by
  rw [Json.lines_singleton, ← join_line] at h
  obtain ⟨before, p, after, hline, hw⟩ := Output.writeAll_of_no_room (by simp [line]) h
  refine ⟨String.join before, String.join (p :: after).dropLast, ?_, ?_⟩
  · have hpieces : v.pieces = before ++ (p :: after).dropLast := by
      rw [← List.dropLast_append_of_ne_nil (List.cons_ne_nil p after), ← hline, line,
        List.dropLast_concat]
    rw [← String.join_append, ← hpieces, Json.join_pieces]
  · rw [put, hw]
    rfl

theorem putLine_of_fit (h : Fit o [v]) : putLine o v = (.ok (), withLines o [v] "") := by
  have room : o.HasRoom (lines [v]) := h.room.resolve_left (List.cons_ne_nil v [])
  rw [putLine, put_of_room room]
  simp [Output.flush_of_can (Output.canFlush_add.2 h.flushes), withLines, Except.mapError]

theorem putLine_of_no_room (h : ¬ o.HasRoom (lines [v])) :
    ∃ part more, part ++ more = v.render ∧
      putLine o v = (.error (.io (.other "output closed")), o.add part) := by
  obtain ⟨part, more, hpart, hput⟩ := put_of_no_room h
  exact ⟨part, more, hpart, by rw [putLine, hput]⟩

theorem putLine_of_no_flush (room : o.HasRoom (lines [v])) (stuck : ¬ o.CanFlush 1) :
    putLine o v = (.error (.io (.other "output closed")), withLines o [v] "") := by
  have hstuck : ¬ (o.add (lines [v])).CanFlush 1 := fun h => stuck (Output.canFlush_add.1 h)
  obtain ⟨hflush, hsame⟩ := Output.flush_of_cannot hstuck
  rw [putLine, put_of_room room]
  simp [hflush, hsame, withLines, Except.mapError]

theorem fit_nil (o : Output) : Fit o [] := ⟨.inl rfl, o.canFlush_zero⟩

/-- Where some values fit, and others behind them, all of them fit. -/
theorem Fit.append (h : Fit (withLines o vs "") ws) (fit : Fit o vs) : Fit o (vs ++ ws) := by
  obtain ⟨room, flushes⟩ := h
  refine ⟨?_, ?_⟩
  · rcases room with rfl | room
    · rw [List.append_nil]
      exact fit.room
    · rw [Json.lines_append]
      rw [withLines, String.append_empty, Output.hasRoom_flushed, Output.hasRoom_add] at room
      exact .inr room
  · rw [List.length_append]
    exact (Output.canFlush_flushed fit.flushes).1 flushes

/-- What is printed behind some values. -/
theorem withLines_withLines (o : Output) (vs whole : List Json) (part : String) :
    withLines (withLines o vs "") whole part = withLines o (vs ++ whole) part := by
  simp [withLines, Output.add_flushed, Json.lines_append, String.append_assoc]

@[simp] theorem withLines_nil (o : Output) (part : String) : withLines o [] part = o.add part := by
  simp [withLines, lines]

theorem hasRoom_withLines {text : String} :
    (withLines o vs "").HasRoom text ↔ o.HasRoom (lines vs ++ text) := by
  rw [withLines, String.append_empty, Output.hasRoom_flushed, Output.hasRoom_add]

theorem PrintOutcome.of_printing
    (h : PrintOutcome o wanted stage whole part taken (.printing s left)) :
    Fit o wanted ∧ whole = wanted ∧ part = "" ∧ taken = wanted ∧ stage = .printing s left := by
  cases h with
  | written fit => exact ⟨fit, rfl, rfl, rfl, rfl⟩

/-- What is printed after some values that fitted. -/
theorem PrintOutcome.after
    (h : PrintOutcome (withLines o vs "") wanted stage whole part taken stage') (fit : Fit o vs) :
    PrintOutcome o (vs ++ wanted) stage (vs ++ whole) part (vs ++ taken) stage' := by
  cases h with
  | written hw => exact .written (hw.append fit)
  | unwritten hwanted hw full hpart =>
    rw [← List.append_assoc]
    refine .unwritten (by rw [hwanted, List.append_assoc]) (hw.append fit) ?_ hpart
    rwa [List.append_assoc, Json.lines_append, ← hasRoom_withLines]
  | unflushed hwanted hw room stuck =>
    rw [← List.append_assoc]
    refine .unflushed (by rw [hwanted, List.append_assoc]) (hw.append fit) ?_ fun can => stuck ?_
    · rwa [List.append_assoc, Json.lines_append, ← hasRoom_withLines]
    · rw [List.length_append, Nat.add_assoc] at can
      exact (Output.canFlush_flushed (o := o.add _) fit.flushes).2 can

/-- Values that come after the command is over make no difference. -/
theorem PrintOutcome.extend {ended' : Bool} {outcome : Except CommandError Unit}
    (h : PrintOutcome o (limited left vs) (stageAfter s left vs.length ended) whole part taken
      (.over outcome)) (hends : ended = true → ws = [] ∧ ended' = true) :
    PrintOutcome o (limited left (vs ++ ws)) (stageAfter s left (vs ++ ws).length ended') whole part
      taken (.over outcome) := by
  generalize hstage : Execution.Stage.over outcome = stage' at h
  cases h with
  | unwritten hwanted fit full hpart =>
    rw [limited_append, hwanted, List.append_assoc]
    exact .unwritten rfl fit full hpart
  | unflushed hwanted fit room stuck =>
    rw [limited_append, hwanted, List.append_assoc]
    exact .unflushed rfl fit room stuck
  | written fit =>
    have same : limited left (vs ++ ws) = limited left vs ∧
        stageAfter s left (vs ++ ws).length ended' = stageAfter s left vs.length ended := by
      rcases stageAfter_over hstage.symm with closed | ⟨k, hle, rfl⟩
      · obtain ⟨rfl, rfl⟩ := hends closed
        rw [List.append_nil, closed]
        exact ⟨rfl, rfl⟩
      · have hle' : k ≤ vs.length + ws.length := Nat.le_add_right_of_le hle
        exact ⟨List.take_append_of_le_length hle, by simp [stageAfter, hle, hle']⟩
    rw [same.1, same.2]
    exact .written fit

/-! ## What is there -/

theorem unread_eq (hf : e.transport.fanout.Follows s q) : e.unread s = q.values.length := by
  obtain ⟨box, hbox, shows⟩ := hf.box
  simp [Execution.unread, hbox, shows.values]

/-- The subscription is closed with the end of the printing. -/
theorem finishPrinting_gone (hs : Serves s e.transport) (hf : e.transport.fanout.Follows s q)
    (outcome : Except CommandError Unit) :
    Course e.transport.fanout (e.finishPrinting s outcome).transport.fanout s [] [] ∧
      Serves s (e.finishPrinting s outcome).transport ∧
      ∀ c, s.key ∉ (e.finishPrinting s outcome).transport.fanout.subscribers c := by
  obtain ⟨hfanout, hserves⟩ := hs.act .discard
  have hfanout : (e.finishPrinting s outcome).transport.fanout =
      (e.transport.fanout.act s .discard).1 := hfanout
  rw [hfanout]
  exact ⟨.discard _ s, hserves, hf.discard_gone.1⟩

theorem poll_found {t : Transport} (hs : Serves s t) (hf : t.fanout.Follows s q) :
    ∃ next, t.act s .poll = (q.read.2, next) ∧ Serves s next ∧ next.fanout.Follows s q.read.1 ∧
      Course t.fanout next.fanout s [] q.read.2.values := by
  obtain ⟨hfanout, hserves⟩ := hs.act .poll
  obtain ⟨hnext, hfound⟩ := hf.poll
  refine ⟨(t.act s .poll).2, Prod.ext hfound rfl, hserves, ?_⟩
  rw [hfanout]
  exact ⟨hnext, hfound ▸ .poll t.fanout s⟩

/-- Some values are printed, and then more. -/
theorem Printed.after {e' : Execution} {others others' : List Fanout.Event}
    (hcourse : Course e.transport.fanout e'.transport.fanout s others vs)
    (hout : e'.output = withLines e.output vs "") (fit : Fit e.output vs)
    (hall : limited left vs = vs)
    (h : Printed s (left.map (· - vs.length)) ws ended others' e' last) :
    Printed s left (vs ++ ws) ended (others ++ others') e last := by
  obtain ⟨⟨whole, part, taken, hcomes, hlast, hcourse'⟩, hserves, hgone⟩ := h
  refine ⟨⟨vs ++ whole, part, vs ++ taken, ?_, ?_, hcourse.trans hcourse'⟩, hserves, hgone⟩
  · rw [hout] at hcomes
    rw [limited_append, hall, List.length_append, stageAfter_add]
    exact hcomes.after fit
  · rw [hlast, hout, withLines_withLines]

/-- The printing ends after some values were taken out. -/
theorem PrintedAll.finish {e' : Execution} {outcome : Except CommandError Unit} {r : Queue}
    (hs : Serves s e'.transport) (hf : e'.transport.fanout.Follows s r)
    (hcourse : Course e.transport.fanout e'.transport.fanout s [] taken)
    (hcomes : PrintOutcome e.output (limited left q.values)
      (stageAfter s left q.values.length q.closed) whole part taken (.over outcome))
    (hout : e'.output = withLines e.output whole part) :
    PrintedAll s left q e (e'.finishPrinting s outcome) := by
  obtain ⟨hclosing, hserves, hgone⟩ := finishPrinting_gone hs hf outcome
  refine ⟨⟨⟨whole, part, taken, hcomes, hout, ?_⟩, hserves, fun _ _ => hgone⟩, fun _ _ h => ?_⟩
  · simpa using hcourse.trans hclosing
  · cases h

/-- The printing ends where nothing more is wanted. -/
theorem PrintedAll.finish_unprinted {e' : Execution} {r : Queue} (hs : Serves s e'.transport)
    (hf : e'.transport.fanout.Follows s r)
    (hcourse : Course e.transport.fanout e'.transport.fanout s [] []) (hout : e'.output = e.output)
    (hwanted : limited left q.values = [])
    (hover : stageAfter s left q.values.length q.closed = .over (.ok ())) :
    PrintedAll s left q e (e'.finishPrinting s (.ok ())) := by
  have hcomes : PrintOutcome e.output (limited left q.values)
      (stageAfter s left q.values.length q.closed) [] "" [] (.over (.ok ())) := by
    rw [hwanted, hover]
    exact .written (fit_nil _)
  exact .finish hs hf hcourse hcomes (by simp [hout])

/-- A command that still prints has taken out and printed all that there was. -/
theorem PrintedAll.of_printing {rest : Option Nat} (h : PrintedAll s left q e last)
    (hstage : last.stage = .printing s rest) :
    rest = left.map (· - q.values.length) ∧ limited left q.values = q.values ∧
      Fit e.output q.values ∧ last.output = withLines e.output q.values "" ∧
      Course e.transport.fanout last.transport.fanout s [] q.values ∧
      last.transport.fanout.Follows s q.emptied := by
  obtain ⟨whole, part, taken, hcomes, hout, hcourse⟩ := h.printed.comes
  rw [hstage] at hcomes
  obtain ⟨fit, rfl, rfl, rfl, hcount⟩ := hcomes.of_printing
  obtain ⟨-, hrest, hall⟩ := stageAfter_printing hcount
  rw [hall] at fit hcourse hout
  exact ⟨hrest, hall, fit, hout, hcourse, h.follows s rest hstage⟩

/-! ## Rounds -/

section
variable (hs : Serves s e.transport) (hf : e.transport.fanout.Follows s q) (rounds : Nat)
include hs hf

theorem print_none :
    PrintedAll s (some 0) q e (Execution.print s (rounds + 1) (some 0) e) := by
  have hprint : Execution.print s (rounds + 1) (some 0) e = e.finishPrinting s (.ok ()) :=
    if_pos rfl
  rw [hprint]
  exact .finish_unprinted hs hf (.refl _ s) rfl rfl (by simp [stageAfter])

theorem print_drained (hleft : left ≠ some 0) (hv : q.values = []) :
    PrintedAll s left q e (Execution.print s (rounds + 1) left e) := by
  obtain ⟨next, hpoll, hserves, hnext, hcourse⟩ := poll_found hs hf
  have hwanted : limited left q.values = [] := by rw [hv, limited_nil]
  rw [Execution.print, if_neg hleft, hpoll]
  cases hc : q.closed with
  | true =>
    have hread : q.read = (q, .ended) := by simp [Queue.read, hv, hc]
    rw [hread] at hnext hcourse ⊢
    exact .finish_unprinted hserves hnext hcourse rfl hwanted (by rw [hc, stageAfter_ended])
  | false =>
    have hread : q.read = (q, .nothing) := by simp [Queue.read, hv, hc]
    rw [hread] at hnext hcourse ⊢
    refine ⟨⟨⟨[], "", [], ?_, by simp, hcourse⟩, hserves, fun _ h => ?_⟩, fun _ _ _ => ?_⟩
    · rw [hwanted, hv, hc, List.length_nil, stageAfter_zero hleft]
      exact .written (fit_nil _)
    · cases h
    · rwa [Queue.emptied, ← hv]

theorem print_unwritten (hleft : left ≠ some 0) (hv : q.values = v :: vs)
    (full : ¬ e.output.HasRoom (lines [v])) :
    PrintedAll s left q e (Execution.print s (rounds + 1) left e) := by
  obtain ⟨next, hpoll, hserves, hnext, hcourse⟩ := poll_found hs hf
  have hread : q.read = ({ q with values := vs }, .value v) := by simp [Queue.read, hv]
  rw [Execution.print, if_neg hleft, hpoll]
  rw [hread] at hnext hcourse ⊢
  obtain ⟨part, more, hpart, hput⟩ := putLine_of_no_room full
  dsimp only
  rw [hput]
  have hcomes : PrintOutcome e.output (limited left q.values)
      (stageAfter s left q.values.length q.closed) [] part [v]
      (.over (.error (.io (.other "output closed")))) := by
    rw [hv]
    exact .unwritten (limited_cons hleft v vs) (fit_nil _) full hpart
  exact .finish hserves hnext hcourse hcomes (by simp)

theorem print_unflushed (hleft : left ≠ some 0) (hv : q.values = v :: vs)
    (room : e.output.HasRoom (lines [v])) (stuck : ¬ e.output.CanFlush 1) :
    PrintedAll s left q e (Execution.print s (rounds + 1) left e) := by
  obtain ⟨next, hpoll, hserves, hnext, hcourse⟩ := poll_found hs hf
  have hread : q.read = ({ q with values := vs }, .value v) := by simp [Queue.read, hv]
  rw [Execution.print, if_neg hleft, hpoll]
  rw [hread] at hnext hcourse ⊢
  dsimp only
  rw [putLine_of_no_flush room stuck]
  have hcomes : PrintOutcome e.output (limited left q.values)
      (stageAfter s left q.values.length q.closed) [v] "" [v]
      (.over (.error (.io (.other "output closed")))) := by
    rw [hv]
    exact .unflushed (limited_cons hleft v vs) (fit_nil _) room stuck
  exact .finish hserves hnext hcourse hcomes rfl

/-- A value that fits is taken out and printed. -/
theorem print_written (hleft : left ≠ some 0) (hv : q.values = v :: vs)
    (fit : Fit e.output [v]) : ∃ e',
      Execution.print s (rounds + 1) left e = Execution.print s rounds (left.map (· - 1)) e' ∧
      e'.output = withLines e.output [v] "" ∧ Serves s e'.transport ∧
      e'.transport.fanout.Follows s { q with values := vs } ∧
      Course e.transport.fanout e'.transport.fanout s [] [v] := by
  obtain ⟨next, hpoll, hserves, hnext, hcourse⟩ := poll_found hs hf
  have hread : q.read = ({ q with values := vs }, .value v) := by simp [Queue.read, hv]
  rw [hread] at hpoll hnext hcourse
  refine ⟨{ e with transport := next, output := withLines e.output [v] "" }, ?_, rfl, hserves,
    hnext, hcourse⟩
  rw [Execution.print, if_neg hleft, hpoll]
  dsimp only
  rw [putLine_of_fit fit]

end

/-- A command that goes on takes out and prints all that there is, up to the count. -/
theorem print_all {rounds : Nat} (hrounds : q.values.length < rounds) (hs : Serves s e.transport)
    (hf : e.transport.fanout.Follows s q) :
    PrintedAll s left q e (Execution.print s rounds left e) := by
  induction rounds generalizing left e q with
  | zero => exact absurd hrounds (Nat.not_lt_zero _)
  | succ rounds ih =>
    by_cases hleft : left = some 0
    · subst hleft
      exact print_none hs hf rounds
    · cases hv : q.values with
      | nil => exact print_drained hs hf rounds hleft hv
      | cons v vs =>
        by_cases room : e.output.HasRoom (lines [v])
        · by_cases flushes : e.output.CanFlush 1
          · have fit : Fit e.output [v] := ⟨.inr room, flushes⟩
            obtain ⟨e', hprint, hout, hserves, hnext, hcourse⟩ :=
              print_written hs hf rounds hleft hv fit
            have hlt : vs.length < rounds := by
              rw [hv] at hrounds
              exact Nat.lt_of_succ_lt_succ hrounds
            obtain ⟨hprinted, hfollows⟩ := ih (q := { q with values := vs }) hlt hserves hnext
            rw [hprint]
            refine ⟨?_, hfollows⟩
            rw [hv]
            exact .after hcourse hout fit (limited_singleton hleft v) hprinted
          · exact print_unflushed hs hf rounds hleft hv room flushes
        · exact print_unwritten hs hf rounds hleft hv room

theorem printAll_all (hs : Serves s e.transport) (hf : e.transport.fanout.Follows s q) :
    PrintedAll s left q e (e.printAll s left) :=
  print_all (by rw [unread_eq hf]; exact Nat.lt_succ_self _) hs hf

/-! ## Pauses -/

/-- A command that is over stays as it is, whatever others do. -/
theorem Printed.rest {others : List Fanout.Event} {p : Pause} {outcome : Except CommandError Unit}
    (h : Printed s left vs ended others e last) (hover : last.stage = .over outcome)
    (hspares : Spares s es)
    (hf : (last.transport.run p.events).fanout = last.transport.fanout.run es)
    (hp : ∀ ev ∈ p.events, ev.Spares s) :
    Printed s left vs ended (others ++ es) e (last.after p) ∧
      (last.after p).stage = .over outcome := by
  have hafter : last.after p = { last with transport := last.transport.run p.events } := by
    simp [Execution.after, Execution.resume, hover]
  have hgone := h.gone outcome hover
  obtain ⟨⟨whole, part, taken, hcomes, hout, hcourse⟩, hserves, -⟩ := h
  obtain ⟨-, -, -, hserves'⟩ := hserves.run hp
  rw [hafter]
  refine ⟨⟨⟨whole, part, taken, hcomes, hout, ?_⟩, hserves', fun _ _ => ?_⟩, hover⟩
  · show Course _ (last.transport.run p.events).fanout s _ _
    rw [hf]
    simpa using hcourse.trans (.others last.transport.fanout hspares)
  · show ∀ c, s.key ∉ (last.transport.run p.events).fanout.subscribers c
    rw [hf]
    exact Fanout.unlisted_run hserves.issued hgone es

theorem Execution.Sees.spares (h : e.Sees s ps batches) : ∀ es ∈ batches, Spares s es := by
  induction h with
  | nil => simp
  | cons hs _ _ ih => simpa using ⟨hs, ih⟩

/-- So it is over many pauses. -/
theorem Printed.rest_run {others : List Fanout.Event} {outcome : Except CommandError Unit}
    (h : Printed s left vs ended others e last) (hover : last.stage = .over outcome)
    (hsees : last.Sees s ps batches) (hps : ∀ p ∈ ps, ∀ ev ∈ p.events, ev.Spares s) :
    Printed s left vs ended (others ++ batches.flatten) e (last.run ps) ∧
      (last.run ps).stage = .over outcome := by
  induction hsees generalizing others with
  | nil => simpa [Execution.run] using ⟨h, hover⟩
  | cons hspares hf _ ih =>
    obtain ⟨hprinted, hstage⟩ := h.rest hover hspares hf (hps _ List.mem_cons_self)
    have hlast := ih hprinted hstage fun p hp => hps p (List.mem_cons_of_mem _ hp)
    simpa [Execution.run] using hlast

/-- Values that come after the command is over make no difference. -/
theorem Printed.extend {others : List Fanout.Event} {ended' : Bool}
    {outcome : Except CommandError Unit} (h : Printed s left vs ended others e last)
    (hover : last.stage = .over outcome) (hends : ended = true → ws = [] ∧ ended' = true) :
    Printed s left (vs ++ ws) ended' others e last := by
  obtain ⟨⟨whole, part, taken, hcomes, hout, hcourse⟩, hserves, hgone⟩ := h
  rw [hover] at hcomes
  exact ⟨⟨whole, part, taken, hover ▸ hcomes.extend hends, hout, hcourse⟩, hserves, hgone⟩

theorem print_prints (rounds : Nat) (left : Option Nat) (e : Execution) :
    (Execution.print s rounds left e).Prints s := by
  fun_induction Execution.print s rounds left e with
  | case1 | case3 => exact .inl ⟨_, rfl⟩
  | case5 _ _ _ _ _ _ _ _ _ ih => exact ih
  | _ => exact .inr ⟨_, rfl⟩

theorem printAll_prints (e : Execution) (s : Subscription) (left : Option Nat) :
    (e.printAll s left).Prints s := print_prints (e.unread s + 1) left e

/-- A command that goes on after a pause prints what it then finds. -/
theorem after_printing {p : Pause} (hstage : e.stage = .printing s left) :
    e.after p = ({ e with transport := e.transport.run p.events }).printAll s left := by
  simp [Execution.after, Execution.resume, hstage]

/-- From its subscription on a command prints what is wanted of the values that the queue yields. -/
theorem printed_run (hs : Serves s e.transport) (hf : e.transport.fanout.Follows s q)
    (hsees : (e.printAll s left).Sees s ps batches)
    (hps : ∀ p ∈ ps, ∀ ev ∈ p.events, ev.Spares s) :
    Printed s left (q.values ++ q.emptied.yields s batches)
      (q.closed || batches.any (·.any (·.ends s))) batches.flatten e
      ((e.printAll s left).run ps) := by
  induction ps generalizing e q left batches with
  | nil =>
    cases hsees
    simpa [Queue.yields, Execution.run] using (printAll_all hs hf).printed
  | cons p ps ih =>
    have hall : PrintedAll s left q e (e.printAll s left) := printAll_all hs hf
    rcases printAll_prints e s left with ⟨rest, hstage⟩ | ⟨outcome, hstage⟩
    · cases hsees with
      | @cons _ _ _ es later hspares hfan hrest =>
        obtain ⟨rfl, hwanted, fit, hout, hcourse, hfollows⟩ := hall.of_printing hstage
        obtain ⟨-, -, -, hserves⟩ := hall.printed.serves.run (hps p List.mem_cons_self)
        -- the next round starts with what came in the pause
        let next : Execution :=
          { e.printAll s left with transport := (e.printAll s left).transport.run p.events }
        have hnext : next.transport.fanout.Follows s (q.emptied.hear s es) := by
          show ((e.printAll s left).transport.run p.events).fanout.Follows s _
          rw [hfan]
          exact hfollows.hear hspares
        have hcourse' : Course e.transport.fanout next.transport.fanout s es q.values := by
          show Course _ ((e.printAll s left).transport.run p.events).fanout s es q.values
          rw [hfan]
          simpa using hcourse.trans (.others _ hspares)
        rw [after_printing hstage] at hrest
        have hlater : ∀ p' ∈ ps, ∀ ev ∈ p'.events, ev.Spares s :=
          fun p' hp => hps p' (List.mem_cons_of_mem _ hp)
        have hlast := ih (e := next) hserves hnext hrest hlater
        rw [Queue.hear_closed] at hlast
        have hwhole := Printed.after hcourse' hout fit hwanted hlast
        have hrun : (e.printAll s left).run (p :: ps) =
            (next.printAll s (left.map (· - q.values.length))).run ps := by
          rw [Execution.run, List.foldl_cons, after_printing hstage]
          rfl
        rw [hrun, Queue.yields, List.any_cons, List.flatten_cons, ← Bool.or_assoc]
        exact hwhole
    · obtain ⟨hlast, hover⟩ := hall.printed.rest_run hstage hsees hps
      refine hlast.extend hover fun hc => ⟨?_, ?_⟩
      · have hclosed : q.emptied.closed = true := hc
        exact Queue.yields_of_closed hclosed rfl hsees.spares
      · rw [hc, Bool.true_or]

/-- A command that prints keeps to its subscription. -/
theorem print_serves (rounds : Nat) (left : Option Nat) {e : Execution}
    (hs : Serves s e.transport) :
    Serves s (Execution.print s rounds left e).transport := by
  have polled : ∀ {t next : Transport} {found}, Serves s t → t.act s .poll = (found, next) →
      Serves s next := fun {t next _} ht hpoll => by
    have hnext := (ht.act .poll).2
    rwa [hpoll] at hnext
  fun_induction Execution.print s rounds left e with
  | case1 => exact hs
  | case2 => exact (hs.act .discard).2
  | case3 rounds left e hleft next hpoll => exact polled hs hpoll
  | case4 rounds left e hleft next hpoll => exact ((polled hs hpoll).act .discard).2
  | case5 rounds left e hleft v next hpoll output hput ih => exact ih (polled hs hpoll)
  | case6 rounds left e hleft v next hpoll fault output hput =>
    exact ((polled hs hpoll).act .discard).2

theorem resume_keeps (hs : Serves s e.transport) (hp : e.Prints s) (milliseconds : Nat) :
    Serves s (e.resume milliseconds).transport ∧ (e.resume milliseconds).Prints s := by
  rcases hp with ⟨left, hstage⟩ | ⟨outcome, hstage⟩
  · rw [Execution.resume, hstage]
    exact ⟨print_serves _ left hs, printAll_prints e s left⟩
  · rw [Execution.resume, hstage]
    exact ⟨hs, .inr ⟨outcome, hstage⟩⟩

/-- What happens in the pauses is something for the subscriptions of the transport. -/
theorem exists_sees (hs : Serves s e.transport) (hp : e.Prints s)
    (hps : ∀ p ∈ ps, ∀ ev ∈ p.events, ev.Spares s) : ∃ batches, e.Sees s ps batches := by
  induction ps generalizing e with
  | nil => exact ⟨[], .nil e⟩
  | cons p ps ih =>
    obtain ⟨es, hspares, hf, hserves⟩ := hs.run (hps p List.mem_cons_self)
    obtain ⟨hserves', hprints⟩ := resume_keeps
      (e := { e with transport := e.transport.run p.events }) hserves hp p.milliseconds
    obtain ⟨later, hlater⟩ := ih hserves' hprints fun p' hp' => hps p' (List.mem_cons_of_mem _ hp')
    exact ⟨es :: later, .cons hspares hf hlater⟩

/-! ## Lines -/

theorem PrintOutcome.newline_not_mem (h : PrintOutcome o wanted stage whole part taken stage') :
    '\n' ∉ part.toList := by
  cases h with
  | written | unflushed => simp
  | @unwritten _ _ v _ _ _ _ _ hpart =>
    intro hm
    refine Json.newline_not_mem_render v ?_
    rw [← hpart, String.toList_append]
    exact List.mem_append_left _ hm

/-- **The first events are printed, each on a line of its own.** A command has got its subscription,
and goes on from time to time while others do things that spare the subscription. What is wanted of
the values that the queue of the subscription yields is the first of them, as many as the command
was told. They are printed and flushed out one by one, unless a line does not fit into the output:
then those in front are, and part of that line; or unless a line cannot be flushed out: then it is
the last. The lines are the texts of the values, and only values that are printed are taken out of
the mailbox, apart from the one that does not fit. The command is over when it has printed as many as
it was told, when the subscription has ended, or when a write or a flush has failed, and no later;
its subscription is closed then. -/
theorem first_events_are_printed {collection : String} {filter : Json} {count : Option Nat}
    (hquery : e.query = .subscribe collection filter count) (hs : Serves s e.transport)
    (hq : e.transport.fanout.Follows s q) (milliseconds : Nat)
    (hps : ∀ p ∈ ps, ∀ ev ∈ p.events, ev.Spares s) :
    let first := e.answered milliseconds (some (.ok (.subscription s)))
    let last := first.run ps
    (∃ batches, first.Sees s ps batches) ∧ ∀ batches, first.Sees s ps batches →
      let yielded := q.yields s ([] :: batches)
      let ended := q.closed || batches.any (·.any (·.ends s))
      ∃ whole part taken,
        PrintOutcome e.output (limited count yielded) (stageAfter s count yielded.length ended)
          whole part taken last.stage ∧
        last.output = withLines e.output whole part ∧
        (lines whole ++ part).toList.splitOn '\n' = whole.map (·.render.toList) ++ [part.toList] ∧
        ((∀ v ∈ whole, Json.read? v.render = some v) →
          onLines (lines whole ++ part) = whole.map some) ∧
        Course e.transport.fanout last.transport.fanout s batches.flatten taken ∧
        ∀ outcome, last.stage = .over outcome →
          ∀ c, s.key ∉ last.transport.fanout.subscribers c := by
  have hfirst : e.answered milliseconds (some (.ok (.subscription s))) = e.printAll s count := by
    simp only [Execution.answered, hquery]
  rw [hfirst]
  intro first last
  refine ⟨exists_sees (print_serves _ count hs) (printAll_prints e s count) hps,
    fun batches hsees => ?_⟩
  obtain ⟨⟨whole, part, taken, hcomes, hout, hcourse⟩, -, hgone⟩ := printed_run hs hq hsees hps
  exact ⟨whole, part, taken, hcomes, hout, Json.splitOn_lines hcomes.newline_not_mem whole,
    Json.onLines_lines hcomes.newline_not_mem, hcourse, hgone⟩

/-- A stand-in that has granted its first subscription. -/
def watched : StandIn := (({ connected := true } : StandIn).subscribe "reporting.realtime" .null).2

/-- Waits for two events. -/
def watching : Execution :=
  { query := .subscribe "reporting.realtime" .null (some 2), task := 1,
    transport := .standIn watched, output := {} }

/-- Three events come. -/
def ticks : Pause where
  events := [.push "reporting.realtime" (.string "a\nb"), .push "reporting.realtime" .null,
    .push "reporting.realtime" (.bool true)]
  milliseconds := 5

theorem two_of_three_are_printed :
    let s : Subscription := ⟨"reporting.realtime", 1⟩
    let first := watching.answered 0 (some (.ok (.subscription s)))
    let last := first.run [ticks]
    Execution.start (.subscribe "reporting.realtime" .null (some 2)) 1
      (.standIn { connected := true }) {} = first ∧
    Serves s watching.transport ∧ watching.transport.fanout.Follows s { capacity := 64 } ∧
    (∀ p ∈ [ticks], ∀ ev ∈ p.events, ev.Spares s) ∧
    last.output.text = "\"a\\nb\"\nnull\n" ∧ last.stage = .over (.ok ()) ∧
    ∀ c, s.key ∉ last.transport.fanout.subscribers c := by
  intro s first last
  have hgranted : ({ connected := true } : StandIn).subscribe "reporting.realtime" .null =
      (.ok s, watched) := rfl
  obtain ⟨hserves, hfollows⟩ := Transport.serves_of_standIn .empty hgranted
  have hspares : ∀ p ∈ [ticks], ∀ ev ∈ p.events, ev.Spares s := by
    simp [ticks, Gateway.Event.Spares]
  let es : List Fanout.Event := [.deliver "reporting.realtime" (.string "a\nb"),
    .deliver "reporting.realtime" .null, .deliver "reporting.realtime" (.bool true)]
  have hsees : first.Sees s [ticks] [es] := .cons (by simp [es, Spares]) rfl (.nil _)
  have hyields : Queue.yields { capacity := 64 } s ([] :: [es]) =
      [.string "a\nb", .null, .bool true] := by
    simp [s, es, Queue.yields, Queue.hear, Queue.emptied, Fanout.story, Fanout.heard,
      Fanout.Event.ends, Queue.run, Queue.step, Queue.feed]
  obtain ⟨-, hall⟩ := first_events_are_printed (e := watching) rfl hserves hfollows 0 hspares
  obtain ⟨whole, part, taken, hcomes, hout, -, -, -, hgone⟩ := hall [es] hsees
  rw [show max ({ connected := true } : StandIn).capacity 1 = 64 from rfl, hyields] at hcomes
  have hcomes : PrintOutcome {} [.string "a\nb", .null] (.over (.ok ()))
      whole part taken last.stage := hcomes
  have hprinted : last.output.text = "\"a\\nb\"\nnull\n" ∧ last.stage = .over (.ok ()) := by
    rw [hout]
    generalize last.stage = stage at hcomes
    cases hcomes with
    | written => exact ⟨by cbv, rfl⟩
    | unwritten _ _ full => exact absurd (fun _ h => by cases h) full
    | unflushed _ _ _ stuck => exact absurd (fun _ h => by cases h) stuck
  exact ⟨rfl, hserves, hfollows, hspares, hprinted.1, hprinted.2, hgone _ hprinted.2⟩

end ServerLink.CommandLine
