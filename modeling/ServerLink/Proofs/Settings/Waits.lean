import ServerLink.Settings.Basic

/-!
# Waiting times in whole seconds

Settings keep a waiting time in whole seconds, and zero seconds switch it off. A time span that is
not zero must not come out as zero, so fractions count as a whole second. The sum has 64 bits, which
is one too few for the spans that come less than a second before the longest one:
`waits_stay_on_unless_overlong` says that such a span is lost in each of the three settings, and
that every other one is kept, rounded up, in the setting it is meant for.
-/

namespace ServerLink

namespace Span

/-- The length in billionths of a second. -/
def total (d : Span) : Nat := d.seconds * 10 ^ 9 + d.nanos

/-- No number of seconds that has 64 bits is as long. -/
def Overlong (d : Span) : Prop := (2 ^ 64 - 1) * 10 ^ 9 < d.total

instance (d : Span) : Decidable d.Overlong := inferInstanceAs (Decidable (_ < _))

/-- `n` seconds are the span rounded up. -/
structure RoundsTo (d : Span) (n : Nat) : Prop where
  no_shorter : d.total ≤ n * 10 ^ 9
  within_a_second : n * 10 ^ 9 < d.total + 10 ^ 9
  has_bits : n < 2 ^ 64

variable {d : Span} {n m : Nat}

theorem isZero_iff : d.isZero = true ↔ d.total = 0 := by
  simp only [isZero, total, Bool.and_eq_true, decide_eq_true_eq]
  omega

theorem overlong_iff : d.Overlong ↔ d.seconds = 2 ^ 64 - 1 ∧ 0 < d.nanos := by
  have hs := d.seconds_lt
  have hn := d.nanos_lt
  unfold Overlong total
  omega

/-- There is one way to round up. -/
theorem RoundsTo.unique (hn : d.RoundsTo n) (hm : d.RoundsTo m) : n = m := by
  have := hn.no_shorter
  have := hn.within_a_second
  have := hm.no_shorter
  have := hm.within_a_second
  omega

/-- Rounding up makes nothing of nothing only. -/
theorem RoundsTo.eq_zero_iff (h : d.RoundsTo n) : n = 0 ↔ d.isZero = true := by
  have := h.no_shorter
  have := h.within_a_second
  rw [isZero_iff]
  omega

/-- The sum, with the fraction as a guard. -/
theorem wholeSeconds?_eq :
    d.wholeSeconds? =
      if d.Overlong then none else some (if 0 < d.nanos then d.seconds + 1 else d.seconds) := by
  have hs := d.seconds_lt
  simp only [wholeSeconds?, overlong_iff]
  split <;> split <;> split <;> first | rfl | omega

theorem wholeSeconds?_eq_none : d.wholeSeconds? = none ↔ d.Overlong := by
  rw [wholeSeconds?_eq]
  split <;> simp_all

theorem wholeSeconds?_eq_some : d.wholeSeconds? = some n ↔ d.RoundsTo n := by
  have whole : ∀ n, d.wholeSeconds? = some n → d.RoundsTo n := by
    intro n h
    have hs := d.seconds_lt
    have hn := d.nanos_lt
    rw [wholeSeconds?_eq] at h
    split at h
    case isTrue => cases h
    case isFalse short =>
      rw [overlong_iff] at short
      obtain rfl := Option.some.inj h
      have total : d.total = d.seconds * 10 ^ 9 + d.nanos := rfl
      constructor <;> split <;> omega
  refine ⟨whole n, fun h => ?_⟩
  -- a span that rounds to a number of 64 bits is not overlong, and it rounds to one number only
  have fits : ¬ d.Overlong := by
    have := h.no_shorter
    have := h.has_bits
    unfold Overlong
    omega
  obtain ⟨m, hm⟩ := Option.ne_none_iff_exists'.mp (mt wholeSeconds?_eq_none.mp fits)
  rw [hm, (whole m hm).unique h]

end Span

/-- The settings that are waiting times. -/
inductive Wait where
  /-- Between liveness probes. -/
  | ping
  /-- For the answer to a call. -/
  | request
  /-- For the connection and the login. -/
  | connect

namespace Wait

/-- Sets the waiting time to a span. -/
def set : Wait → Settings → Span → Option Settings
  | .ping => Settings.withPingInterval
  | .request => Settings.withRequestTimeout
  | .connect => Settings.withConnectTimeout

/-- The seconds that are stored for it. -/
def stored : Wait → Settings → Nat
  | .ping, s => s.pingInterval
  | .request, s => s.requestTimeout
  | .connect, s => s.connectTimeout

/-- The settings with other seconds stored for it, and nothing else changed. -/
def store : Wait → Settings → Nat → Settings
  | .ping, s, n => { s with pingInterval := n }
  | .request, s, n => { s with requestTimeout := n }
  | .connect, s, n => { s with connectTimeout := n }

/-- The waiting time as a client asks for it. -/
def read? : Wait → Settings → Option Nat
  | .ping, s => s.pingEvery?
  | .request, s => s.answerWithin?
  | .connect, s => some s.connectWithin

/-- What a client is told when zero seconds are stored: nobody waits forever for a connection. -/
def off? : Wait → Option Nat
  | .ping | .request => none
  | .connect => some 10

variable (w : Wait) (s : Settings) (d : Span)

theorem set_eq : w.set s d = d.wholeSeconds?.map (w.store s) := by
  cases w <;> rfl

@[simp] theorem stored_store (n : Nat) : w.stored (w.store s n) = n := by
  cases w <;> rfl

theorem read?_eq : w.read? s = if w.stored s = 0 then w.off? else some (w.stored s) := by
  cases w with
  | ping | request => rfl
  | connect =>
    by_cases h : s.connectTimeout = 0 <;>
      simp [read?, Settings.connectWithin, Settings.unlessZero, stored, off?, h]

end Wait

/-- **A span that is set as a waiting time keeps it on.** The builder for a waiting time fails just
when the span is overlong. Otherwise it stores the span rounded up to whole seconds and changes
nothing else, what is stored is positive just when the span is not zero, and a client that asks for
the waiting time is told that it is off just when the span is zero. -/
theorem Settings.waits_stay_on_unless_overlong (w : Wait) (s : Settings) (d : Span) :
    (w.set s d = none ↔ d.Overlong) ∧
    ∀ s', w.set s d = some s' →
      s' = w.store s (w.stored s') ∧
      d.RoundsTo (w.stored s') ∧
      (0 < w.stored s' ↔ d.isZero = false) ∧
      w.read? s' = if d.isZero then w.off? else some (w.stored s') := by
  rw [Wait.set_eq]
  refine ⟨by rw [Option.map_eq_none_iff, Span.wholeSeconds?_eq_none], fun s' h => ?_⟩
  obtain ⟨n, hn, rfl⟩ := Option.map_eq_some_iff.mp h
  have rounds : d.RoundsTo n := Span.wholeSeconds?_eq_some.mp hn
  refine ⟨by rw [Wait.stored_store], by rwa [Wait.stored_store], ?_, ?_⟩
  · rw [Wait.stored_store, Nat.pos_iff_ne_zero, ne_eq, rounds.eq_zero_iff, Bool.not_eq_true]
  · simp only [Wait.read?_eq, Wait.stored_store, rounds.eq_zero_iff]

/-- A billionth more than a second is two seconds. -/
theorem Settings.billionth_counts_as_second :
    ({} : Settings).withPingInterval ⟨1, 1, by decide, by decide⟩ = some { pingInterval := 2 } ∧
    ({ pingInterval := 2 } : Settings).pingEvery? = some 2 :=
  have h : ({} : Settings).withPingInterval ⟨1, 1, by decide, by decide⟩ =
      some { pingInterval := 2 } := by decide
  ⟨h, ((Settings.waits_stay_on_unless_overlong .ping {} ⟨1, 1, by decide, by decide⟩).2 _ h).2.2.2⟩

/-- The longest number of seconds and a billionth more is neither kept nor rounded. -/
theorem Settings.longest_wait_overflows :
    ({} : Settings).withRequestTimeout ⟨2 ^ 64 - 1, 1, by decide, by decide⟩ = none := by
  decide

end ServerLink
