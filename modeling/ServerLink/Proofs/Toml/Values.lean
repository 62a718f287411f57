import ServerLink.Proofs.Toml.Strings
import ServerLink.Settings.Text

/-!
# Values that are written and read

What `Written` says of a text: it opens with no blank, and where a line ends after it, the reader
takes all of it for the value. So are texts that stand for strings, booleans and whole numbers.
-/

namespace ServerLink.Toml

variable {c d : Char} {ds cs r : List Char}

/-- A text stands for a value on a line. -/
structure Written (text : String) (v : Toml) : Prop where
  opens : ∀ c ∈ text.toList.head?, isWhitespace c = false
  reads : ∀ r, readValue (text.toList ++ '\n' :: r) = some (v, '\n' :: r)

/-- Anything but an array or an inline table is a scalar. -/
theorem readValue_scalar (h : c ≠ '[' ∧ c ≠ '\x7b') : readValue (c :: cs) = scalar (c :: cs) := by
  rw [readValue, valueAt]
  · exact fun _ he => h.1 (List.cons.inj he).1
  · exact fun _ he => h.2 (List.cons.inj he).1

/-! ## Strings and booleans -/

/-- A text that stands for a string begins with a quote. -/
theorem IsString.head {s : String} {ts : List Char} (h : IsString s ts) :
    ∃ cs, ts = '"' :: cs ∨ ts = '\'' :: cs := by
  cases h with
  | basic | multilineBasic => exact ⟨_, .inl rfl⟩
  | literal | multilineLiteral => exact ⟨_, .inr rfl⟩

theorem written_string {s text : String} (h : IsString s text.toList) : Written text (.string s) := by
  have reads := h.reads
  obtain ⟨cs, ht | ht⟩ := h.head
  all_goals
    rw [ht] at reads
    refine ⟨by simp [ht, isWhitespace], fun r => ?_⟩
    rw [ht, List.cons_append, readValue_scalar (by decide), scalar, ← List.cons_append, reads]
    rfl

theorem written_boolean (b : Bool) : Written (Settings.writeBoolean b) (.boolean b) := by
  cases b with
  | true =>
    refine ⟨by simp [Settings.writeBoolean, isWhitespace], fun r => ?_⟩
    show readValue ('t' :: 'r' :: 'u' :: 'e' :: '\n' :: r) = _
    exact readValue_scalar (by decide)
  | false =>
    refine ⟨by simp [Settings.writeBoolean, isWhitespace], fun r => ?_⟩
    show readValue ('f' :: 'a' :: 'l' :: 's' :: 'e' :: '\n' :: r) = _
    exact readValue_scalar (by decide)

/-! ## Whole numbers

Neither a date nor a time of day begins with a number that a line ends after, since a dash or a
colon comes after the first digits of those.
-/

/-- After some of the digits before a line end comes a digit or the line end. -/
theorem expect_after_digits {count low high n : Nat} (h : ∀ d ∈ ds, d.isDigit = true)
    (hc : c.isDigit = false) (line : c ≠ '\n')
    (hf : fixedDigits count low high (ds ++ '\n' :: r) = some (n, cs)) : expect c cs = none := by
  simp only [fixedDigits, Option.ite_none_right_eq_some, Option.some.injEq, Prod.mk.injEq] at hf
  obtain ⟨⟨length, digits, -⟩, -, rfl⟩ := hf
  have short : count ≤ ds.length := by
    refine Nat.le_of_not_lt fun long => ?_
    have lineEnd : '\n' ∈ (ds ++ '\n' :: r).take count :=
      List.mem_take_iff_getElem.mpr ⟨ds.length, by simp; omega, by simp⟩
    exact absurd (List.all_eq_true.mp digits _ lineEnd) (by decide)
  rw [List.drop_append_of_le_length short]
  cases hd : ds.drop count with
  | nil => simp [expect, line.symm]
  | cons d rest =>
    have : d ≠ c := by
      rintro rfl
      have digit := h d (List.mem_of_mem_drop (hd ▸ List.mem_cons_self))
      rw [hc] at digit
      cases digit
    simp [expect, this]

theorem readTime_digits (h : ∀ d ∈ ds, d.isDigit = true) : readTime (ds ++ '\n' :: r) = none := by
  have noDate : date (ds ++ '\n' :: r) = none := by
    unfold date
    cases hf : fixedDigits 4 0 9999 (ds ++ '\n' :: r) with
    | none => rfl
    | some found => simp [expect_after_digits h (c := '-') (by decide) (by decide) hf]
  have noTime : timeOfDay (ds ++ '\n' :: r) = none := by
    unfold timeOfDay
    cases hf : fixedDigits 2 0 23 (ds ++ '\n' :: r) with
    | none => rfl
    | some found => simp [expect_after_digits h (c := ':') (by decide) (by decide) hf]
  rw [readTime, noDate, noTime]
  rfl

theorem digitsAfter_line (h : ∀ d ∈ ds, d.isDigit = true) :
    digitsAfter Char.isDigit (ds ++ '\n' :: r) = some (ds, '\n' :: r) := by
  induction ds with
  | nil => simp [digitsAfter]
  | cons d ds ih =>
    have digit := h d List.mem_cons_self
    have rest := ih fun e he => h e (List.mem_cons_of_mem d he)
    have underscore : d ≠ '_' := by rintro rfl; cases digit
    rw [List.cons_append, digitsAfter, if_pos digit, rest]
    · rfl
    all_goals intros; contradiction

/-- The value of decimal digits, as the number that they are the text of. -/
theorem valueOf_eq (h : ∀ d ∈ ds, d.isDigit = true) (n : Nat) :
    ds.foldl (fun n d => 10 * n + (Text.hexDigit? d).getD 0) n = Nat.ofDigitChars 10 ds n := by
  induction ds generalizing n with
  | nil => rfl
  | cons d ds ih =>
    have digit : Text.hexDigit? d = some (d.toNat - '0'.toNat) := by
      have hd := h d List.mem_cons_self
      simp only [Char.isDigit, Bool.and_eq_true, decide_eq_true_eq] at hd
      exact if_pos hd
    rw [List.foldl_cons, digit, ih fun e he => h e (List.mem_cons_of_mem d he), Nat.ofDigitChars_cons]
    rfl

/-- The digits of a number have a zero in front only if it is all there is. -/
theorem toDigits_eq_cons (n : Nat) :
    ∃ d ds, Nat.toDigits 10 n = d :: ds ∧ (d = '0' → ds = []) ∧ ∀ e ∈ d :: ds, e.isDigit = true := by
  have front : 0 < n → ∃ d ds, Nat.toDigits 10 n = d :: ds ∧ d ≠ '0' := by
    induction n using Nat.strongRecOn with
    | ind n ih =>
      intro pos
      rw [Nat.toDigits_eq_if (by decide)]
      split
      case isTrue small => exact ⟨n.digitChar, [], rfl, mt Nat.digitChar_eq_zero.mp (by omega)⟩
      case isFalse large =>
        obtain ⟨d, ds, hd, zero⟩ := ih (n / 10) (by omega) (by omega)
        exact ⟨d, ds ++ [(n % 10).digitChar], by rw [hd, List.cons_append], zero⟩
  have digit : ∀ d ∈ Nat.toDigits 10 n, d.isDigit = true := fun d hd =>
    Nat.isDigit_of_mem_toDigits (by decide) (by decide) hd
  obtain rfl | pos := Nat.eq_zero_or_pos n
  · exact ⟨'0', [], Nat.toDigits_zero 10, fun _ => rfl, by simp⟩
  · obtain ⟨d, ds, hd, zero⟩ := front pos
    exact ⟨d, ds, hd, fun he => absurd he zero, hd ▸ digit⟩

/-- A digit opens nothing but a number or a time. -/
theorem ne_of_isDigit (h : d.isDigit = true) (hc : c.isDigit = false) : d ≠ c := by
  rintro rfl
  rw [h] at hc
  cases hc

theorem wholePart_digits (zero : d = '0' → ds = []) (h : ∀ e ∈ d :: ds, e.isDigit = true) :
    wholePart (d :: (ds ++ '\n' :: r)) = some (d :: ds, '\n' :: r) := by
  by_cases hd : d = '0'
  · rw [hd, zero hd]
    rfl
  · have rest := digitsAfter_line (r := r) fun e he => h e (List.mem_cons_of_mem d he)
    rw [wholePart, digits, if_pos (h d List.mem_cons_self), rest]
    · rfl
    · exact fun _ he => hd (List.cons.inj he).1

theorem integer?_eq {n : Nat} (hn : n < 2 ^ 63) : integer? n = some (.integer n) := by
  unfold integer?
  rw [if_pos]
  omega

theorem fractionPart_line : fractionPart ('\n' :: r) = some (none, '\n' :: r) := rfl

theorem exponentPart_line : exponentPart ('\n' :: r) = some (none, '\n' :: r) := rfl

theorem number_digits {n : Nat} (hn : n < 2 ^ 63) (zero : d = '0' → ds = [])
    (h : ∀ e ∈ d :: ds, e.isDigit = true) (value : valueOf 10 (d :: ds) = n) :
    number (d :: (ds ++ '\n' :: r)) = some (.integer n, '\n' :: r) := by
  have first : d.isDigit = true := h d List.mem_cons_self
  -- a base is named after a zero, and here a zero stands alone
  have plain : ∀ b, b ≠ '\n' → ∀ t, d :: (ds ++ '\n' :: r) ≠ '0' :: b :: t := by
    intro b hb t he
    obtain ⟨hd, ht⟩ := List.cons.inj he
    rw [zero hd] at ht
    exact hb (List.cons.inj ht).1.symm
  have unsigned : sign (d :: (ds ++ '\n' :: r)) = (false, d :: (ds ++ '\n' :: r)) := by
    rw [sign]
    all_goals exact fun _ he => ne_of_isDigit first (by decide) (List.cons.inj he).1
  rw [number]
  case x_1 | x_2 | x_3 => exact plain _ (by decide)
  rw [unsigned]
  split
  case h_1 he | h_2 he => exact absurd (List.cons.inj (Prod.mk.inj he).2).1 (ne_of_isDigit first (by decide))
  case h_3 he =>
    obtain ⟨rfl, rfl⟩ := Prod.mk.inj he
    -- part by part, so that the branch for floats is never looked into
    rw [wholePart_digits zero h, Option.bind_eq_bind, Option.bind_some]
    dsimp only
    rw [fractionPart_line, Option.bind_eq_bind, Option.bind_some]
    dsimp only
    rw [exponentPart_line, Option.bind_eq_bind, Option.bind_some]
    dsimp only
    rw [if_pos ⟨rfl, rfl⟩, if_neg Bool.false_ne_true, value, integer?_eq hn]
    rfl

theorem written_integer {n : Nat} (hn : n < 2 ^ 63) : Written (toString n) (.integer n) := by
  have text : (toString n).toList = Nat.toDigits 10 n := by
    rw [Nat.toString_eq_ofList_toDigits, String.toList_ofList]
  obtain ⟨d, ds, hd, zero, digit⟩ := toDigits_eq_cons n
  have first : d.isDigit = true := digit d List.mem_cons_self
  have other : ∀ c, c.isDigit = false → d ≠ c := fun c => ne_of_isDigit first
  have value : valueOf 10 (d :: ds) = n := by
    rw [valueOf, valueOf_eq digit, ← hd, Nat.ofDigitChars_ten_toDigits]
  rw [hd] at text
  refine ⟨?_, fun r => ?_⟩
  · rw [text]
    rintro _ ⟨⟩
    simp [isWhitespace, other ' ' (by decide), other '\t' (by decide)]
  · have time : readTime (d :: (ds ++ '\n' :: r)) = none := readTime_digits (r := r) digit
    rw [text, List.cons_append, readValue_scalar ⟨other _ (by decide), other _ (by decide)⟩, scalar,
      time]
    · exact number_digits hn zero digit value
    all_goals exact fun _ he => other _ (by decide) (List.cons.inj he).1

end ServerLink.Toml
