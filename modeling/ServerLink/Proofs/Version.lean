import Mathlib.Data.List.DropRight
import Mathlib.Data.List.Induction
import Mathlib.Data.Nat.Find
import ServerLink.Version

/-!
# The version in a text

The pattern of a version is a run of digits, a point and a run of digits. Of its matches in a text
the one counts that starts first, and of those that start together the one with the longest first
run and then the longest second one (`Match.Found`). It stands around the first point that has
digits on both sides (`JoinsFirst`, `found_of_joinsFirst`), which is the one that `firstPair` finds
(`firstPair_eq_some`).
-/

namespace ServerLink.Version

open Text (isDigit)

/-- A point of the text has a digit directly before and directly after it. -/
structure Joins (cs before after : List Char) : Prop where
  text : cs = before ++ '.' :: after
  left : before.getLast?.any isDigit = true
  right : after.head?.any isDigit = true

/-- It is the first point that has. -/
structure JoinsFirst (cs before after : List Char) : Prop extends Joins cs before after where
  first : ∀ b a, Joins cs b a → before.length ≤ b.length

/-- A place in a text where the pattern may match: the two runs, what is in front of them, and what
follows. -/
structure Match where
  before : List Char
  major : List Char
  minor : List Char
  after : List Char

namespace Match

/-- The pattern matches here. -/
structure Of (cs : List Char) (m : Match) : Prop where
  text : cs = m.before ++ m.major ++ '.' :: (m.minor ++ m.after)
  major_ne : m.major ≠ []
  minor_ne : m.minor ≠ []
  major_digits : ∀ c ∈ m.major, isDigit c = true
  minor_digits : ∀ c ∈ m.minor, isDigit c = true

/-- A match comes before those that start later, and before those that start at the same place with
a shorter first run or with an equal one and no longer second run. -/
def Precedes (m m' : Match) : Prop :=
  m.before.length < m'.before.length ∨ m.before.length = m'.before.length ∧
    (m'.major.length < m.major.length ∨
      m'.major.length = m.major.length ∧ m'.minor.length ≤ m.minor.length)

/-- The match that is found: leftmost, and greedy. -/
def Found (cs : List Char) (m : Match) : Prop := m.Of cs ∧ ∀ m' : Match, m'.Of cs → m.Precedes m'

end Match

/-- ASCII digits that stand for a number of 32 bits. -/
def Fits (run : List Char) : Prop :=
  (∀ d ∈ run, d.isDigit = true) ∧ Nat.ofDigitChars 10 run 0 < 2 ^ 32

instance (run : List Char) : Decidable (Fits run) :=
  decidable_of_iff (run.all Char.isDigit = true ∧ Nat.ofDigitChars 10 run 0 < 2 ^ 32)
    (and_congr_left' List.all_eq_true)

variable {cs before after b a seen run ds : List Char} {m m' : Match} {n : Nat}

/-! ## Runs of digits -/

theorem point_not_digit : isDigit '.' = false := by decide

theorem any_getLast?_iff : before.getLast?.any isDigit = true ↔ before.rtakeWhile isDigit ≠ [] := by
  cases before using List.reverseRecOn with
  | nil => simp
  | append_singleton l c =>
    rw [List.getLast?_concat, List.rtakeWhile_concat]
    cases hc : isDigit c <;> simp [hc]

theorem any_head?_iff : after.head?.any isDigit = true ↔ after.takeWhile isDigit ≠ [] := by
  cases after with
  | nil => simp
  | cons c l => cases hc : isDigit c <;> simp [hc]

/-- No run of digits at the end of a text is longer than the one that is taken. -/
theorem suffix_rtakeWhile {l u : List Char} (h : ∀ c ∈ u, isDigit c = true) :
    u.length ≤ ((l ++ u).rtakeWhile isDigit).length := by
  induction u using List.reverseRecOn with
  | nil => exact Nat.zero_le _
  | append_singleton u c ih =>
    rw [← List.append_assoc, List.rtakeWhile_concat_pos _ _ _ (h c (by simp))]
    simpa using ih fun c hc => h c (by simp [hc])

/-- No run of digits at the start of a text is longer than the one that is taken. -/
theorem prefix_takeWhile {u l : List Char} (h : ∀ c ∈ u, isDigit c = true) :
    u.length ≤ ((u ++ l).takeWhile isDigit).length := by
  rw [List.takeWhile_append_of_pos h]
  simp

/-! ## Points and matches -/

/-- Two points at one place are the same. -/
theorem Joins.eq_of_length (h : Joins cs before after) (h' : Joins cs b a)
    (hlength : before.length = b.length) : before = b ∧ after = a := by
  obtain ⟨hb, ha⟩ := List.append_inj (h.text.symm.trans h'.text) hlength
  exact ⟨hb, (List.cons.inj ha).2⟩

/-- Where points join digits there is a first one. -/
theorem Joins.exists_first (h : Joins cs b a) : ∃ before after, JoinsFirst cs before after := by
  have hex : ∃ n b a, Joins cs b a ∧ b.length = n := ⟨_, b, a, h, rfl⟩
  classical
  obtain ⟨before, after, hjoins, hlength⟩ := Nat.find_spec hex
  exact ⟨before, after, hjoins, fun b a hba => hlength ▸ Nat.find_min' hex ⟨b, a, hba, rfl⟩⟩

theorem JoinsFirst.unique (h : JoinsFirst cs before after) (h' : JoinsFirst cs b a) :
    before = b ∧ after = a :=
  h.toJoins.eq_of_length h'.toJoins
    (Nat.le_antisymm (h.first b a h'.toJoins) (h'.first before after h.toJoins))

namespace Match

/-- A match stands around a point between digits. -/
theorem Of.joins (h : m.Of cs) : Joins cs (m.before ++ m.major) (m.minor ++ m.after) where
  text := h.text
  left := by
    rw [List.getLast?_append_of_ne_nil _ h.major_ne, List.getLast?_eq_some_getLast h.major_ne]
    exact h.major_digits _ (List.getLast_mem _)
  right := by
    rw [List.head?_append_of_ne_nil _ h.minor_ne, List.head?_eq_some_head h.minor_ne]
    exact h.minor_digits _ (List.head_mem _)

/-- Matches that precede each other are the same. -/
theorem Of.eq_of_precedes (h : m.Of cs) (h' : m'.Of cs) (hp : m.Precedes m')
    (hp' : m'.Precedes m) : m = m' := by
  have hlengths : m.before.length = m'.before.length ∧ m.major.length = m'.major.length ∧
      m.minor.length = m'.minor.length := by
    unfold Precedes at hp hp'
    omega
  obtain ⟨hbefore, hmajor, hminor⟩ := hlengths
  obtain ⟨hfront, hback⟩ := h.joins.eq_of_length h'.joins (by simp [hbefore, hmajor])
  obtain ⟨hb, hmaj⟩ := List.append_inj hfront hbefore
  obtain ⟨hmin, ha⟩ := List.append_inj hback hminor
  cases m
  cases m'
  simp_all

end Match

/-- The match around a point: the runs of digits that end and start there. -/
def around (before after : List Char) : Match where
  before := before.rdropWhile isDigit
  major := before.rtakeWhile isDigit
  minor := after.takeWhile isDigit
  after := after.dropWhile isDigit

theorem Joins.around (h : Joins cs before after) : (around before after).Of cs where
  text := by
    simp only [Version.around, List.rdropWhile_append_rtakeWhile, List.takeWhile_append_dropWhile]
    exact h.text
  major_ne := any_getLast?_iff.1 h.left
  minor_ne := any_head?_iff.1 h.right
  major_digits := fun _ hc => List.mem_rtakeWhile_imp hc
  minor_digits := fun _ hc => List.mem_takeWhile_imp hc

/-- **The match that is found** is the one around the first point between digits. -/
theorem found_of_joinsFirst (h : JoinsFirst cs before after) : (around before after).Found cs := by
  refine ⟨h.toJoins.around, fun m hm => ?_⟩
  have hlength : before.length =
      (before.rdropWhile isDigit).length + (before.rtakeWhile isDigit).length := by
    rw [← List.length_append, List.rdropWhile_append_rtakeWhile]
  rcases Nat.lt_or_eq_of_le (h.first _ _ hm.joins) with hlt | heq
  · -- the point is in front of the match, since there is none in its first run
    refine .inl (Nat.lt_of_le_of_lt (hlength ▸ Nat.le_add_right ..) ?_)
    by_contra hle
    have hpoint : cs[before.length]? = some '.' := by rw [h.text]; simp
    rw [hm.text, List.getElem?_append_left hlt,
      List.getElem?_append_right (Nat.le_of_not_lt hle)] at hpoint
    have hdigit := hm.major_digits _ (List.mem_of_getElem? hpoint)
    rw [point_not_digit] at hdigit
    cases hdigit
  · obtain ⟨rfl, rfl⟩ := h.toJoins.eq_of_length hm.joins heq
    have hmajor := suffix_rtakeWhile (l := m.before) hm.major_digits
    have hminor := prefix_takeWhile (l := m.after) hm.minor_digits
    rw [List.length_append] at hlength
    simp only [Match.Precedes, Version.around]
    omega

/-! ## The scan -/

/-- If no point in front of the next character joins digits and this one does not either, none does
in front of the place behind it. -/
theorem joins_behind {seen : List Char} {c : Char}
    (hnone : ∀ b a, Joins (seen ++ c :: cs) b a → seen.length ≤ b.length)
    (hno : ¬ (Joins (seen ++ c :: cs) seen cs ∧ c = '.')) (b a : List Char)
    (h : Joins ((seen ++ [c]) ++ cs) b a) : (seen ++ [c]).length ≤ b.length := by
  rw [List.append_assoc, List.singleton_append] at h
  rw [List.length_append, List.length_singleton]
  by_contra hlt
  have heq : seen.length = b.length := Nat.le_antisymm (hnone b a h) (by omega)
  obtain ⟨rfl, hc⟩ := List.append_inj h.text heq
  obtain ⟨rfl, rfl⟩ := List.cons.inj hc
  exact hno ⟨h, rfl⟩

/-- From a place in front of which no point joins digits, the scan finds the first one that does. -/
theorem firstPair_scan (run seen cs : List Char) (hrun : run.reverse = seen.rtakeWhile isDigit)
    (hnone : ∀ b a, Joins (seen ++ cs) b a → seen.length ≤ b.length) :
    (∀ x y, firstPair run cs = some (x, y) → ∃ before after, JoinsFirst (seen ++ cs) before after ∧
        x = before.rtakeWhile isDigit ∧ y = after.takeWhile isDigit) ∧
      (firstPair run cs = none → ∀ b a, ¬ Joins (seen ++ cs) b a) := by
  induction cs generalizing run seen with
  | nil =>
    refine ⟨fun _ _ h => (nomatch h), fun _ b a h => ?_⟩
    have hle := hnone b a h
    have hlength := congrArg List.length h.text
    simp only [List.append_nil, List.length_append, List.length_cons] at hlength
    omega
  | cons c cs ih =>
    have hsplit : seen ++ c :: cs = (seen ++ [c]) ++ cs := by simp
    unfold firstPair
    by_cases hdigit : isDigit c = true
    · rw [if_pos hdigit, hsplit]
      refine ih _ _ ?_ (joins_behind hnone ?_)
      · rw [List.reverse_cons, hrun, List.rtakeWhile_concat_pos _ _ _ hdigit]
      · rintro ⟨-, rfl⟩
        cases point_not_digit.symm.trans hdigit
    rw [if_neg hdigit]
    have hleft : seen.getLast?.any isDigit = true ↔ run ≠ [] := by
      rw [any_getLast?_iff, ← hrun, Ne, List.reverse_eq_nil_iff]
    split
    · rename_i hpoint
      obtain ⟨rfl, hne, hhead⟩ := hpoint
      refine ⟨fun x y h => ?_, fun h => by cases h⟩
      cases h
      exact ⟨seen, cs, ⟨⟨rfl, hleft.2 hne, hhead⟩, hnone⟩, hrun, rfl⟩
    · rename_i hpoint
      rw [hsplit]
      refine ih _ _ ?_ (joins_behind hnone ?_)
      · rw [List.rtakeWhile_concat_neg _ _ _ hdigit, List.reverse_nil]
      · rintro ⟨h, rfl⟩
        exact hpoint ⟨rfl, hleft.1 h.left, h.right⟩

theorem firstPair_eq_none : firstPair [] cs = none ↔ ∀ b a, ¬ Joins cs b a := by
  obtain ⟨hsome, hnone⟩ := firstPair_scan [] [] cs rfl fun _ _ _ => Nat.zero_le _
  refine ⟨hnone, fun h => ?_⟩
  cases hpair : firstPair [] cs with
  | none => rfl
  | some p =>
    obtain ⟨before, after, hfirst, -⟩ := hsome p.1 p.2 hpair
    exact absurd hfirst.toJoins (h before after)

theorem firstPair_eq_some {x y : List Char} : firstPair [] cs = some (x, y) ↔
    ∃ before after, JoinsFirst cs before after ∧
      x = before.rtakeWhile isDigit ∧ y = after.takeWhile isDigit := by
  obtain ⟨hsome, hnone⟩ := firstPair_scan [] [] cs rfl fun _ _ _ => Nat.zero_le _
  refine ⟨hsome x y, ?_⟩
  rintro ⟨before, after, hfirst, rfl, rfl⟩
  cases hpair : firstPair [] cs with
  | none => exact absurd hfirst.toJoins (hnone hpair before after)
  | some p =>
    obtain ⟨b, a, hfirst', hx, hy⟩ := hsome p.1 p.2 hpair
    obtain ⟨rfl, rfl⟩ := hfirst.unique hfirst'
    rw [← hx, ← hy]

/-- The scan finds what a search for the pattern finds. -/
theorem firstPair_eq_found {x y : List Char} : firstPair [] cs = some (x, y) ↔
    ∃ m : Match, m.Found cs ∧ m.major = x ∧ m.minor = y := by
  rw [firstPair_eq_some]
  constructor
  · rintro ⟨before, after, hfirst, rfl, rfl⟩
    exact ⟨around before after, found_of_joinsFirst hfirst, rfl, rfl⟩
  · rintro ⟨m, hm, rfl, rfl⟩
    obtain ⟨before, after, hfirst⟩ := hm.1.joins.exists_first
    have hfound := found_of_joinsFirst hfirst
    obtain rfl := hm.1.eq_of_precedes hfound.1 (hm.2 _ hfound.1) (hfound.2 _ hm.1)
    exact ⟨before, after, hfirst, rfl, rfl⟩

/-! ## Numbers -/

theorem ofDigitChars_concat (ds : List Char) (d : Char) : Nat.ofDigitChars 10 (ds ++ [d]) 0 =
    10 * Nat.ofDigitChars 10 ds 0 + (d.toNat - '0'.toNat) := by
  rw [Nat.ofDigitChars_append, Nat.ofDigitChars_cons, Nat.ofDigitChars_nil]

theorem number?_eq_some : number? ds = some n ↔ Fits ds ∧ Nat.ofDigitChars 10 ds 0 = n := by
  induction ds using List.reverseRecOn generalizing n with
  | nil => simp [number?, Fits]
  | append_singleton ds d ih =>
    have hconcat : number? (ds ++ [d]) = (number? ds).bind fun n =>
        if d.isDigit ∧ 10 * n + (d.toNat - '0'.toNat) < 2 ^ 32
        then some (10 * n + (d.toNat - '0'.toNat)) else none := by
      rw [number?, List.foldl_append]
      rfl
    have hall : (∀ c ∈ ds ++ [d], c.isDigit = true) ↔
        (∀ c ∈ ds, c.isDigit = true) ∧ d.isDigit = true := by simp [or_imp, forall_and]
    rw [hconcat, Option.bind_eq_some_iff]
    simp only [ih, Fits, ofDigitChars_concat, hall, Option.ite_none_right_eq_some,
      Option.some.injEq]
    constructor
    · rintro ⟨k, ⟨⟨hds, -⟩, rfl⟩, ⟨hd, hlt⟩, rfl⟩
      exact ⟨⟨⟨hds, hd⟩, hlt⟩, rfl⟩
    · rintro ⟨⟨⟨hds, hd⟩, hlt⟩, rfl⟩
      exact ⟨_, ⟨⟨hds, by omega⟩, rfl⟩, ⟨hd, hlt⟩, rfl⟩

theorem number?_eq_none : number? ds = none ↔ ¬ Fits ds := by
  rw [Option.eq_none_iff_forall_ne_some]
  simp [number?_eq_some]

/-- Digits of ASCII are digits. -/
theorem isDigit_of_ascii {d : Char} (h : d.isDigit = true) : isDigit d = true := by
  simp only [Char.isDigit, Bool.and_eq_true, decide_eq_true_eq] at h
  have hd : 48 ≤ d.toNat ∧ d.toNat ≤ 57 := ⟨h.1, h.2⟩
  simp [isDigit, Text.within, Text.digitRanges, hd]

/-- A number that is written in decimal digits is read back from them. -/
theorem fits_toDigits (h : n < 2 ^ 32) : Fits (Nat.toDigits 10 n) :=
  ⟨fun _ hd => Nat.isDigit_of_mem_toDigits (by decide) (by decide) hd,
    by rwa [Nat.ofDigitChars_ten_toDigits]⟩

/-! ## Versions -/

section
variable {text : String} (h : JoinsFirst text.toList before after)
include h

theorem ofText?_of_joinsFirst : ofText? text =
    (number? (before.rtakeWhile isDigit)).bind fun major =>
      (number? (after.takeWhile isDigit)).map fun minor => ⟨major, minor⟩ := by
  rw [ofText?, firstPair_eq_some.2 ⟨before, after, h, rfl, rfl⟩]
  show ((number? _).bind fun major => (number? _).bind fun minor => some (⟨major, minor⟩ : Version)) = _
  simp only [Option.map_eq_bind]
  rfl

theorem ofText?_eq_none_of_joinsFirst : ofText? text = none ↔
    ¬ Fits (before.rtakeWhile isDigit) ∨ ¬ Fits (after.takeWhile isDigit) := by
  rw [ofText?_of_joinsFirst h, ← number?_eq_none, ← number?_eq_none]
  cases number? (before.rtakeWhile isDigit) <;> simp

theorem ofText?_eq_some_of_joinsFirst (hl : Fits (before.rtakeWhile isDigit))
    (hr : Fits (after.takeWhile isDigit)) : ofText? text =
      some ⟨Nat.ofDigitChars 10 (before.rtakeWhile isDigit) 0,
        Nat.ofDigitChars 10 (after.takeWhile isDigit) 0⟩ := by
  rw [ofText?_of_joinsFirst h, number?_eq_some.2 ⟨hl, rfl⟩, number?_eq_some.2 ⟨hr, rfl⟩]
  rfl

end

theorem ofText?_of_not_joins {text : String} (h : ∀ b a, ¬ Joins text.toList b a) :
    ofText? text = none := by
  rw [ofText?, firstPair_eq_none.2 h]
  rfl

/-- No point joins digits before the end of the first run of them. -/
theorem Joins.run_le (p u : List Char) {rest : List Char} (h : Joins (p ++ u ++ rest) b a)
    (hp : ∀ c ∈ p, isDigit c = false) (hu : ∀ c ∈ u, isDigit c = true) :
    (p ++ u).length ≤ b.length := by
  by_contra hlt
  have hin : ∀ i c, i < (p ++ u).length → (b ++ '.' :: a)[i]? = some c →
      (p ++ u)[i]? = some c := by
    intro i c hi hc
    rwa [← h.text, List.getElem?_append_left hi] at hc
  have hpoint := hin b.length '.' (by omega) (by simp)
  rcases Nat.lt_or_ge b.length p.length with hbp | hbp
  · -- the digit in front of the point would be one of `p`
    obtain ⟨c, hc, hdigit⟩ : ∃ c, b.getLast? = some c ∧ isDigit c = true := by
      simpa [Option.any_eq_true] using h.left
    have hpos : 0 < b.length := List.length_pos_iff.2 fun hnil => by simp [hnil] at hc
    rw [List.getLast?_eq_getElem?] at hc
    have hlast := hin (b.length - 1) c (by simp; omega)
      (by rwa [List.getElem?_append_left (by omega)])
    rw [List.getElem?_append_left (by omega)] at hlast
    rw [hp c (List.mem_of_getElem? hlast)] at hdigit
    cases hdigit
  · rw [List.getElem?_append_right hbp] at hpoint
    have hdigit := hu '.' (List.mem_of_getElem? hpoint)
    rw [point_not_digit] at hdigit
    cases hdigit

theorem rtakeWhile_append_run {p u : List Char} (hp : ∀ c ∈ p, isDigit c = false)
    (hu : ∀ c ∈ u, isDigit c = true) : (p ++ u).rtakeWhile isDigit = u := by
  induction u using List.reverseRecOn with
  | nil =>
    rw [List.append_nil, List.rtakeWhile_eq_nil_iff]
    intro hne
    simp [hp _ (List.getLast_mem hne)]
  | append_singleton u c ih =>
    rw [← List.append_assoc, List.rtakeWhile_concat_pos _ _ _ (hu c (by simp)),
      ih fun d hd => hu d (by simp [hd])]

/-- In a text with a version in it, no digit in front of that and none directly behind, the version's
point is the first one between digits. -/
theorem joinsFirst_text (v : Version) {p t : List Char} (hp : ∀ c ∈ p, isDigit c = false)
    (ht : t.head?.any isDigit = false) : ∃ before after,
      JoinsFirst (p ++ v.text.toList ++ t) before after ∧
        before.rtakeWhile isDigit = Nat.toDigits 10 v.major ∧
        after.takeWhile isDigit = Nat.toDigits 10 v.minor := by
  have hdigits : ∀ n, ∀ c ∈ Nat.toDigits 10 n, isDigit c = true := fun n c hc =>
    isDigit_of_ascii (Nat.isDigit_of_mem_toDigits (by decide) (by decide) hc)
  have htext : p ++ v.text.toList ++ t =
      p ++ Nat.toDigits 10 v.major ++ '.' :: (Nat.toDigits 10 v.minor ++ t) := by
    simp [Version.text]
  have hmajor := rtakeWhile_append_run hp (hdigits v.major)
  have hminor : (Nat.toDigits 10 v.minor ++ t).takeWhile isDigit = Nat.toDigits 10 v.minor := by
    have hnone : t.takeWhile isDigit = [] := by
      by_contra hne
      rw [any_head?_iff.2 hne] at ht
      cases ht
    rw [List.takeWhile_append_of_pos (hdigits v.minor), hnone, List.append_nil]
  refine ⟨_, _, ⟨⟨htext, any_getLast?_iff.2 ?_, any_head?_iff.2 ?_⟩, fun b a h => ?_⟩,
    hmajor, hminor⟩
  · rw [hmajor]
    exact Nat.toDigits_ne_nil
  · rw [hminor]
    exact Nat.toDigits_ne_nil
  · exact Joins.run_le _ _ (htext ▸ h) hp (hdigits v.major)

/-- **A version is the first pair of digit runs that a point joins.** The scan for it finds what a
leftmost and greedy search for the pattern finds. So a text has no version if no point of it has
digits on both sides, or if one of the two runs around the first such point is no number of 32 bits
in ASCII digits; otherwise its version is these two numbers. In particular a version is read back from
its text, whatever stands in front that has no digit and whatever follows that does not start with
one. -/
theorem version_is_first_pair (text : String) :
    (firstPair [] text.toList = none ↔ ∀ m : Match, ¬ m.Of text.toList) ∧
      (∀ major minor, firstPair [] text.toList = some (major, minor) ↔
        ∃ m : Match, m.Found text.toList ∧ m.major = major ∧ m.minor = minor) ∧
      (ofText? text = none ↔ (∀ before after, ¬ Joins text.toList before after) ∨
        ∃ before after, JoinsFirst text.toList before after ∧
          (¬ Fits (before.rtakeWhile isDigit) ∨ ¬ Fits (after.takeWhile isDigit))) ∧
      (∀ before after, JoinsFirst text.toList before after →
        Fits (before.rtakeWhile isDigit) → Fits (after.takeWhile isDigit) →
        ofText? text = some ⟨Nat.ofDigitChars 10 (before.rtakeWhile isDigit) 0,
          Nat.ofDigitChars 10 (after.takeWhile isDigit) 0⟩) ∧
      ∀ (v : Version) (p t : String), v.major < 2 ^ 32 → v.minor < 2 ^ 32 →
        (∀ c ∈ p.toList, isDigit c = false) → t.toList.head?.any isDigit = false →
        text = p ++ v.text ++ t → ofText? text = some v := by
  refine ⟨?_, fun major minor => firstPair_eq_found, ?_,
    fun before after h => ofText?_eq_some_of_joinsFirst h, ?_⟩
  · rw [firstPair_eq_none]
    exact ⟨fun h m hm => h _ _ hm.joins, fun h b a hba => h _ hba.around⟩
  · constructor
    · intro hnone
      by_cases hex : ∃ b a, Joins text.toList b a
      · obtain ⟨b, a, hba⟩ := hex
        obtain ⟨before, after, hfirst⟩ := hba.exists_first
        exact .inr ⟨before, after, hfirst, (ofText?_eq_none_of_joinsFirst hfirst).1 hnone⟩
      · exact .inl fun b a hba => hex ⟨b, a, hba⟩
    · rintro (hno | ⟨before, after, hfirst, hfits⟩)
      · exact ofText?_of_not_joins hno
      · exact (ofText?_eq_none_of_joinsFirst hfirst).2 hfits
  · rintro ⟨major, minor⟩ p t hmajor hminor hp ht rfl
    obtain ⟨before, after, hfirst, hl, hr⟩ := joinsFirst_text ⟨major, minor⟩ hp ht
    rw [← String.toList_append, ← String.toList_append] at hfirst
    rw [ofText?_eq_some_of_joinsFirst hfirst (hl ▸ fits_toDigits hmajor)
      (hr ▸ fits_toDigits hminor), hl, hr, Nat.ofDigitChars_ten_toDigits,
      Nat.ofDigitChars_ten_toDigits]

theorem no_digits_of_all (h : cs.all (!isDigit ·) = true) : ∀ c ∈ cs, isDigit c = false :=
  fun c hc => by simpa using List.all_eq_true.mp h c hc

/-- The first of two pairs counts, and zeros in front of a number do not. -/
theorem first_of_two_pairs_counts :
    (∃ before after, JoinsFirst "TrueNAS-SCALE-24.04.2.5".toList before after ∧
      before.rtakeWhile isDigit = ['2', '4'] ∧ after.takeWhile isDigit = ['0', '4'] ∧
      Fits ['2', '4'] ∧ Fits ['0', '4'] ∧
      ofText? "TrueNAS-SCALE-24.04.2.5" = some ⟨24, 4⟩) ∧
    (∀ c ∈ "v. ".toList, isDigit c = false) ∧ ".1-MASTER".toList.head?.any isDigit = false ∧
      ofText? ("v. " ++ (⟨25, 10⟩ : Version).text ++ ".1-MASTER") = some ⟨25, 10⟩ := by
  have hjoins : Joins "TrueNAS-SCALE-24.04.2.5".toList "TrueNAS-SCALE-24".toList
      "04.2.5".toList := ⟨by decide, by decide, by decide⟩
  have hfirst : JoinsFirst "TrueNAS-SCALE-24.04.2.5".toList "TrueNAS-SCALE-24".toList
      "04.2.5".toList :=
    ⟨hjoins, fun b a h => Joins.run_le "TrueNAS-SCALE-".toList ['2', '4'] h
      (no_digits_of_all (by decide)) (List.all_eq_true.mp (by decide))⟩
  have hmajor : Fits ("TrueNAS-SCALE-24".toList.rtakeWhile isDigit) := by decide
  have hminor : Fits ("04.2.5".toList.takeWhile isDigit) := by decide
  obtain ⟨-, -, -, hsome, -⟩ := version_is_first_pair "TrueNAS-SCALE-24.04.2.5"
  obtain ⟨-, -, -, -, hback⟩ := version_is_first_pair
    ("v. " ++ (⟨25, 10⟩ : Version).text ++ ".1-MASTER")
  have hfront : ∀ c ∈ "v. ".toList, isDigit c = false := no_digits_of_all (by decide)
  exact ⟨⟨_, _, hfirst, rfl, rfl, hmajor, hminor, hsome _ _ hfirst hmajor hminor⟩, hfront,
    by decide, hback ⟨25, 10⟩ "v. " ".1-MASTER" (by decide) (by decide) hfront (by decide) rfl⟩

end ServerLink.Version
