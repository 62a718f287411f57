import ServerLink.Toml.Printer
import ServerLink.Toml.Strings

/-!
# Strings that are written and read

`IsString` says which texts stand for a string: basic and literal ones, on one line or over several,
with the escapes that TOML has. Each of them is read as its string (`IsString.reads`), whoever wrote
it; `writeString` writes one of them, whatever the string holds (`isString_writeString`). Where
several lines hold a string, quotes stand as they are: the reader takes them for text as long as
they are no more than two in a row (`multilineBasic_quote`), and more of them only come with the
closing ones (`Spelled.closing`).
-/

namespace ServerLink.Toml

/-- What stands for a character in a string with escapes; a quote has to be escaped. -/
inductive Escaped (multiline : Bool) (c : Char) : List Char → Prop where
  | letter {e : Char} : escaped? e = some c → Escaped multiline c ['\\', e]
  | code {u v w x : Char} : codePoint? [u, v, w, x] = some c →
    Escaped multiline c ['\\', 'u', u, v, w, x]
  | longCode {s t u v w x y z : Char} : codePoint? [s, t, u, v, w, x, y, z] = some c →
    Escaped multiline c ['\\', 'U', s, t, u, v, w, x, y, z]
  | plain : isBasic c = true ∨ multiline = true ∧ c = '\n' → Escaped multiline c [c]

/-- A text with escapes stands for some characters. Over several lines up to two quotes in a row
stand as they are; `quotes` of them are right before the text. -/
inductive Spelled (multiline : Bool) : (quotes : Nat) → (cs text : List Char) → Prop where
  | nil {quotes : Nat} : Spelled multiline quotes [] []
  | quote {quotes : Nat} {cs text : List Char} (room : multiline = true ∧ quotes < 2)
      (rest : Spelled multiline (quotes + 1) cs text) :
      Spelled multiline quotes ('"' :: cs) ('"' :: text)
  | char {quotes : Nat} {c : Char} {cs es text : List Char} (escaped : Escaped multiline c es)
      (rest : Spelled multiline 0 cs text) : Spelled multiline quotes (c :: cs) (es ++ text)

/-- A string over several lines may start on a line of its own, and has to if its text begins with a
line break. -/
def Starts (start text : List Char) : Prop :=
  start = ['\n'] ∨ start = [] ∧ text.head? ≠ some '\n'

/-- A text stands for a string. -/
inductive IsString (s : String) : List Char → Prop where
  | basic {text : List Char} (spelled : Spelled false 0 s.toList text) :
      IsString s ('"' :: (text ++ ['"']))
  | literal (plain : ∀ c ∈ s.toList, isLiteral c = true) :
      IsString s ('\'' :: (s.toList ++ ['\'']))
  | multilineBasic {start text : List Char} (spelled : Spelled true 0 s.toList text)
      (starts : Starts start text) :
      IsString s ('"' :: '"' :: '"' :: (start ++ text ++ ['"', '"', '"']))
  | multilineLiteral {start : List Char}
      (plain : ∀ c ∈ s.toList, c = '\n' ∨ c = '\'' ∨ isLiteral c = true)
      (run : ¬ ['\'', '\'', '\''] <:+: s.toList) (starts : Starts start s.toList) :
      IsString s ('\'' :: '\'' :: '\'' :: (start ++ s.toList ++ ['\'', '\'', '\'']))

/-- A printer writes this string as a text that stands for it. -/
def Prints (print : StringPrinter) (s : String) : Prop :=
  ∃ text, print s = .ok text ∧ IsString s text.toList

variable {m : Bool} {c e : Char} {s text : String} {r cs es ts start : List Char} {quotes : Nat}

/-! ## Reading escapes -/

/-- A letter that makes an escape neither opens a code nor ends a line. -/
theorem letter_of_escaped? (h : escaped? e = some c) :
    e ≠ 'u' ∧ e ≠ 'U' ∧ e ≠ '\r' ∧ e ≠ '\n' ∧ isWhitespace e = false := by
  unfold escaped? at h
  split at h <;> first | decide | cases h

/-- A character that stands for itself is none that the readers look out for. -/
theorem ne_special_of_isBasic (h : isBasic c = true) : c ≠ '"' ∧ c ≠ '\\' ∧ c ≠ '\r' := by
  refine ⟨?_, ?_, ?_⟩ <;> (rintro rfl; cases h)

/-- A quote stands first for a quote only. -/
theorem Escaped.head (h : Escaped m c es) :
    ∃ d ds, es = d :: ds ∧ d ≠ '"' ∧ d ≠ '\r' ∧ (d = '\n' → c = '\n') := by
  cases h with
  | letter _ | code _ | longCode _ => exact ⟨_, _, rfl, by decide, by decide, fun h => nomatch h⟩
  | plain h =>
    refine ⟨c, [], rfl, ?_⟩
    rcases h with h | ⟨-, rfl⟩
    · obtain ⟨quote, -, back⟩ := ne_special_of_isBasic h
      exact ⟨quote, back, id⟩
    · exact ⟨by decide, by decide, id⟩

theorem basic_escaped (h : Escaped false c es) (text : String) (r : List Char) :
    basic text (es ++ r) = basic (text.push c) r := by
  cases h with
  | letter h =>
    obtain ⟨code, long, -⟩ := letter_of_escaped? h
    rw [List.cons_append, List.singleton_append, basic, h]
    all_goals intros; contradiction
  | code h | longCode h =>
    simp only [List.cons_append, List.nil_append]
    rw [basic, h]
  | plain h =>
    have h : isBasic c = true := by simpa using h
    obtain ⟨quote, backslash, -⟩ := ne_special_of_isBasic h
    rw [List.singleton_append, basic, if_pos h]
    all_goals intros; contradiction

theorem multilineBasic_escaped (h : Escaped true c es) (text : String) (r : List Char) :
    multilineBasic .text text (es ++ r) = multilineBasic .text (text.push c) r := by
  cases h with
  | letter h =>
    obtain ⟨code, long, back, line, blank⟩ := letter_of_escaped? h
    rw [List.cons_append, List.singleton_append, multilineBasic, if_neg line,
      if_neg (Bool.eq_false_iff.mp blank), h]
    all_goals intros; contradiction
  | code h | longCode h =>
    simp only [List.cons_append, List.nil_append]
    rw [multilineBasic, h]
    exact nofun
  | plain h =>
    have special : c ≠ '"' ∧ c ≠ '\\' ∧ c ≠ '\r' := by
      rcases h with h | ⟨-, rfl⟩
      · exact ne_special_of_isBasic h
      · decide
    obtain ⟨quote, backslash, back⟩ := special
    rw [List.singleton_append, multilineBasic, if_pos (by simpa [or_comm] using h)]
    all_goals intros; contradiction

/-- A text with escapes on one line. -/
theorem Spelled.basic (h : Spelled false quotes cs ts) (text : String) (r : List Char) :
    Toml.basic text (ts ++ '"' :: r) = some (text ++ String.ofList cs, r) := by
  induction h generalizing text with
  | nil => simp [Toml.basic]
  | quote room => exact absurd room.1 (by decide)
  | char escaped _ ih =>
    rw [List.append_assoc, basic_escaped escaped, ih]
    simp [String.ext_iff]

/-! ## Quotes over several lines

Up to two quotes in a row are text. Right before the closing three they make a run of four or five,
whose first ones are text as well.
-/

/-- A quote that two others do not follow. -/
theorem multilineBasic_quote (h : ¬ ['"', '"'] <+: r) (text : String) :
    multilineBasic .text text ('"' :: r) = multilineBasic .text (text.push '"') r := by
  rw [multilineBasic]
  all_goals
    intros
    first | contradiction | (subst_vars; exact h (by simp))

theorem multilineLiteral_quote (h : ¬ ['\'', '\''] <+: r) (text : String) :
    multilineLiteral text ('\'' :: r) = multilineLiteral (text.push '\'') r := by
  rw [multilineLiteral]
  all_goals
    intros
    subst_vars
    exact h (by simp)

/-- The closing quotes, with `n` quotes of the text before. -/
theorem multilineBasic_end {n : Nat} (hn : n ≤ 2) (text : String) (r : List Char) :
    multilineBasic .text text (List.replicate (n + 3) '"' ++ '\n' :: r) =
      some (text ++ String.ofList (List.replicate n '"'), '\n' :: r) := by
  match n, hn with
  | 0, _ | 1, _ | 2, _ => simp [List.replicate, multilineBasic, String.ext_iff]

theorem multilineLiteral_end {n : Nat} (hn : n ≤ 2) (text : String) (r : List Char) :
    multilineLiteral text (List.replicate (n + 3) '\'' ++ '\n' :: r) =
      some (text ++ String.ofList (List.replicate n '\''), '\n' :: r) := by
  match n, hn with
  | 0, _ | 1, _ | 2, _ => simp [List.replicate, multilineLiteral, String.ext_iff]

/-- Two quotes after a third one are the closing ones, but for one quote at the end of the text. -/
theorem Spelled.closing (h : Spelled true quotes cs ts) (hq : 0 < quotes)
    (two : ['"', '"'] <+: ts ++ '"' :: '"' :: '"' :: r) :
    cs = [] ∧ ts = [] ∨ cs = ['"'] ∧ ts = ['"'] := by
  -- what stands for a character with an escape does not begin with a quote
  have first {c : Char} {es ts : List Char} (escaped : Escaped true c es) : ¬ ['"'] <+: es ++ ts := by
    obtain ⟨d, ds, rfl, hd, -⟩ := escaped.head
    simp [hd.symm]
  cases h with
  | nil => exact .inl ⟨rfl, rfl⟩
  | char escaped =>
    rw [List.append_assoc] at two
    exact absurd (List.IsPrefix.trans ⟨['"'], rfl⟩ two) (first escaped)
  | quote room rest =>
    rw [List.cons_append, List.cons_prefix_cons] at two
    cases rest with
    | nil => exact .inr ⟨rfl, rfl⟩
    | char escaped =>
      rw [List.append_assoc] at two
      exact absurd two.2 (first escaped)
    | quote more =>
      have := more.2
      omega

/-- A text with escapes over several lines. -/
theorem Spelled.multilineBasic (h : Spelled true quotes cs ts) (text : String) (r : List Char) :
    Toml.multilineBasic .text text (ts ++ '"' :: '"' :: '"' :: '\n' :: r) =
      some (text ++ String.ofList cs, '\n' :: r) := by
  induction h generalizing text with
  | nil => exact multilineBasic_end (Nat.zero_le 2) text r
  | @quote quotes cs ts _ rest ih =>
    rw [List.cons_append]
    by_cases two : ['"', '"'] <+: ts ++ '"' :: '"' :: '"' :: '\n' :: r
    · obtain ⟨rfl, rfl⟩ | ⟨rfl, rfl⟩ := rest.closing (Nat.succ_pos quotes) two
      · exact multilineBasic_end (n := 1) (by decide) text r
      · exact multilineBasic_end (n := 2) (by decide) text r
    · rw [multilineBasic_quote two, ih]
      simp [String.ext_iff]
  | char escaped _ ih =>
    rw [List.append_assoc, multilineBasic_escaped escaped, ih]
    simp [String.ext_iff]

/-! ## Literal strings -/

theorem literal_plain (h : ∀ c ∈ cs, isLiteral c = true) (text : String) (r : List Char) :
    literal text (cs ++ '\'' :: r) = some (text ++ String.ofList cs, r) := by
  induction cs generalizing text with
  | nil => simp [literal]
  | cons c cs ih =>
    have hc := h c List.mem_cons_self
    have quote : c ≠ '\'' := by rintro rfl; cases hc
    rw [List.cons_append, literal, if_pos hc, ih fun d hd => h d (List.mem_cons_of_mem _ hd)]
    · simp [String.ext_iff]
    · exact quote

/-- A text without three quotes in a row, over several lines. -/
theorem multilineLiteral_plain (h : ∀ c ∈ cs, c = '\n' ∨ c = '\'' ∨ isLiteral c = true)
    (run : ¬ ['\'', '\'', '\''] <:+: cs) (text : String) (r : List Char) :
    multilineLiteral text (cs ++ '\'' :: '\'' :: '\'' :: '\n' :: r) =
      some (text ++ String.ofList cs, '\n' :: r) := by
  induction cs generalizing text with
  | nil => exact multilineLiteral_end (Nat.zero_le 2) text r
  | cons c cs ih =>
    have rest := ih (fun d hd => h d (List.mem_cons_of_mem _ hd))
      fun hi => run (hi.trans (List.suffix_cons c cs).isInfix)
    by_cases hc : c = '\''
    · subst hc
      rw [List.cons_append]
      by_cases two : ['\'', '\''] <+: cs ++ '\'' :: '\'' :: '\'' :: '\n' :: r
      · match cs, two with
        | [], _ => exact multilineLiteral_end (n := 1) (by decide) text r
        | ['\''], _ => exact multilineLiteral_end (n := 2) (by decide) text r
        | d :: e :: cs, two =>
          simp only [List.cons_append, List.cons_prefix_cons] at two
          obtain ⟨rfl, rfl, -⟩ := two
          exact absurd ⟨[], cs, rfl⟩ run
      · rw [multilineLiteral_quote two, rest]
        simp [String.ext_iff]
    · have plain : (c = '\n' || isLiteral c) = true := by simpa [hc] using h c List.mem_cons_self
      have back : c ≠ '\r' := by rintro rfl; cases plain
      rw [List.cons_append, multilineLiteral, if_pos plain, rest]
      · simp [String.ext_iff]
      all_goals intros; contradiction

/-! ## Each kind of string -/

theorem readString_basic (h : ¬ ['"', '"'] <+: r) : readString ('"' :: r) = basic "" r := by
  rw [readString]
  intros
  subst_vars
  exact h (by simp)

theorem readString_literal (h : ¬ ['\'', '\''] <+: r) : readString ('\'' :: r) = literal "" r := by
  rw [readString]
  intros
  subst_vars
  exact h (by simp)

/-- The line break after opening quotes is taken away, and nothing else if there is none. -/
theorem Starts.afterLineEnd (h : Starts start ts) (back : ts.head? ≠ some '\r') (hc : c ≠ '\n')
    (hr : c ≠ '\r') : Toml.afterLineEnd (start ++ ts ++ c :: r) = ts ++ c :: r := by
  obtain rfl | ⟨rfl, line⟩ := h
  · rfl
  · unfold Toml.afterLineEnd
    cases ts with
    | nil => split <;> simp_all
    | cons t ts => split <;> simp_all

/-- No text begins with a carriage return that stands for itself. -/
theorem Spelled.head (h : Spelled m quotes cs ts) : ts.head? ≠ some '\r' := by
  cases h with
  | nil | quote => simp
  | char escaped =>
    obtain ⟨d, ds, rfl, -, back, -⟩ := escaped.head
    simp [back]

/-- On one line a quote after the opening one closes the string. -/
theorem Spelled.opening (h : Spelled false quotes cs ts) :
    ¬ ['"', '"'] <+: ts ++ '"' :: '\n' :: r := by
  cases h with
  | nil => simp
  | quote room => exact absurd room.1 (by decide)
  | char escaped =>
    obtain ⟨d, ds, rfl, hd, -⟩ := escaped.head
    simp [hd.symm]

/-- **A text that stands for a string is read as that string**, up to the end of its line. -/
theorem IsString.reads (h : IsString s ts) (r : List Char) :
    readString (ts ++ '\n' :: r) = some (s, '\n' :: r) := by
  cases h with
  | @basic ts spelled =>
    have text : '"' :: (ts ++ ['"']) ++ '\n' :: r = '"' :: (ts ++ '"' :: '\n' :: r) := by simp
    rw [text, readString_basic spelled.opening, spelled.basic]
    simp
  | literal plain =>
    have opening : ¬ ['\'', '\''] <+: s.toList ++ '\'' :: '\n' :: r := by
      cases hs : s.toList with
      | nil => simp
      | cons c cs =>
        have : c ≠ '\'' := by
          rintro rfl
          exact absurd (plain '\'' (hs ▸ List.mem_cons_self)) (by decide)
        simp [this.symm]
    have text : '\'' :: (s.toList ++ ['\'']) ++ '\n' :: r =
        '\'' :: (s.toList ++ '\'' :: '\n' :: r) := by simp
    rw [text, readString_literal opening, literal_plain plain]
    simp
  | @multilineBasic start ts spelled starts =>
    have text : '"' :: '"' :: '"' :: (start ++ ts ++ ['"', '"', '"']) ++ '\n' :: r =
        '"' :: '"' :: '"' :: (start ++ ts ++ '"' :: '"' :: '"' :: '\n' :: r) := by simp
    rw [text, readString, starts.afterLineEnd spelled.head (by decide) (by decide),
      spelled.multilineBasic]
    simp
  | @multilineLiteral start plain run starts =>
    have text : '\'' :: '\'' :: '\'' :: (start ++ s.toList ++ ['\'', '\'', '\'']) ++ '\n' :: r =
        '\'' :: '\'' :: '\'' :: (start ++ s.toList ++ '\'' :: '\'' :: '\'' :: '\n' :: r) := by
      simp
    have back : s.toList.head? ≠ some '\r' := fun h =>
      absurd (plain '\r' (List.mem_of_mem_head? h)) (by decide)
    rw [text, readString, starts.afterLineEnd back (by decide) (by decide),
      multilineLiteral_plain plain run]
    simp

/-! ## Escapes that are written -/

/-- The characters of a text with escapes; see `escapeChars`. -/
def escapes (multiline : Bool) : (quotes : Nat) → List Char → List Char
  | _, [] => []
  | quotes, c :: cs =>
    if c = '"' then
      if multiline ∧ quotes < 2 then '"' :: escapes multiline (quotes + 1) cs
      else '\\' :: '"' :: escapes multiline 0 cs
    else (escapeChar multiline c).toList ++ escapes multiline 0 cs

theorem toList_escapeChars (m : Bool) (quotes : Nat) (out : String) (cs : List Char) :
    (escapeChars m quotes out cs).toList = out.toList ++ escapes m quotes cs := by
  fun_induction escapeChars m quotes out cs with
  | case1 => simp [escapes]
  | case2 quotes out cs hm ih => rw [ih, escapes, if_pos rfl, if_pos hm]; simp
  | case3 quotes out cs hm ih => rw [ih, escapes, if_pos rfl, if_neg hm]; simp
  | case4 quotes out c cs hc ih => simp [escapes, hc, ih]

/-- The digits of a control character, and the only one beyond them. -/
theorem codePoint?_control : ∀ n < 128, codePoint? ['0', '0', (Nat.digitChar (n / 16)).toUpper,
    (Nat.digitChar (n % 16)).toUpper] = some (Char.ofNat n) := by
  decide

theorem escaped_escapeChar (m : Bool) (h : c ≠ '"') : Escaped m c (escapeChar m c).toList := by
  unfold escapeChar
  split
  case isTrue h => subst h; exact .letter (e := 'b') rfl
  split
  case isTrue h => subst h; exact .letter (e := 't') rfl
  split
  case isTrue h =>
    subst h
    cases m with
    | true => exact .plain (.inr ⟨rfl, rfl⟩)
    | false => exact .letter (e := 'n') rfl
  split
  case isTrue h => subst h; exact .letter (e := 'f') rfl
  split
  case isTrue h => subst h; exact .letter (e := 'r') rfl
  split
  case isTrue h => subst h; exact .letter (e := '\\') rfl
  split
  case isTrue control =>
    have low : c.toNat < 128 := by
      rcases control with control | rfl
      · have : c.toNat < ' '.toNat := control
        exact Nat.lt_trans this (by decide)
      · decide
    have code := codePoint?_control c.toNat low
    rw [Char.ofNat_toNat] at code
    have escaped : Escaped m c _ := .code code
    simpa using escaped
  case isFalse backslash control =>
    have basic : isBasic c = true := by
      simp only [isBasic]
      grind
    have plain : Escaped m c [c] := .plain (.inl basic)
    simpa using plain

theorem spelled_escapes (m : Bool) (quotes : Nat) (cs : List Char) :
    Spelled m quotes cs (escapes m quotes cs) := by
  induction cs generalizing quotes with
  | nil => exact .nil
  | cons c cs ih =>
    by_cases hc : c = '"'
    · subst hc
      rw [escapes, if_pos rfl]
      split
      next room => exact .quote room (ih _)
      next =>
        have escaped : Escaped m '"' ['\\', '"'] := .letter rfl
        exact .char escaped (ih 0)
    · rw [escapes, if_neg hc]
      exact .char (escaped_escapeChar m hc) (ih 0)

/-! ## Runs of quotes -/

/-- The run that ends here and the longest one, after a character. -/
def runStep (c : Char) (run : Nat × Nat) (d : Char) : Nat × Nat :=
  if d = c then (run.1 + 1, max run.2 (run.1 + 1)) else (0, run.2)

theorem longestRun_eq (c : Char) (cs : List Char) :
    longestRun c cs = (cs.foldl (runStep c) (0, 0)).2 := rfl

theorem le_foldl_runStep (c : Char) (cs : List Char) (run : Nat × Nat) :
    run.2 ≤ (cs.foldl (runStep c) run).2 := by
  induction cs generalizing run with
  | nil => exact Nat.le_refl _
  | cons d cs ih =>
    refine Nat.le_trans ?_ (ih _)
    unfold runStep
    split
    · exact Nat.le_max_left _ _
    · exact Nat.le_refl _

theorem foldl_runStep_replicate (c : Char) (n : Nat) (run : Nat × Nat) (h : run.1 ≤ run.2) :
    run.1 + n ≤ ((List.replicate n c).foldl (runStep c) run).2 := by
  induction n generalizing run with
  | zero => exact h
  | succ n ih =>
    have one : runStep c run c = (run.1 + 1, max run.2 (run.1 + 1)) := if_pos rfl
    have next := ih (run.1 + 1, max run.2 (run.1 + 1)) (Nat.le_max_right _ _)
    rw [List.replicate_succ, List.foldl_cons, one]
    omega

theorem foldl_runStep_le (c : Char) (cs : List Char) (run : Nat × Nat) (h : run.1 ≤ run.2) :
    (cs.foldl (runStep c) run).1 ≤ (cs.foldl (runStep c) run).2 := by
  induction cs generalizing run with
  | nil => exact h
  | cons d cs ih =>
    refine ih _ ?_
    unfold runStep
    split
    · exact Nat.le_max_right _ _
    · exact Nat.zero_le _

/-- No run in a text is longer than the longest one. -/
theorem le_longestRun {n : Nat} (h : List.replicate n c <:+: cs) : n ≤ longestRun c cs := by
  obtain ⟨before, after, rfl⟩ := h
  rw [longestRun_eq, List.foldl_append, List.foldl_append]
  refine Nat.le_trans ?_ (le_foldl_runStep c after _)
  have start := foldl_runStep_le c before (0, 0) (Nat.le_refl 0)
  exact Nat.le_trans (Nat.le_add_left n _) (foldl_runStep_replicate c n _ start)

theorem not_mem_of_longestRun (h : longestRun c cs = 0) : c ∉ cs := by
  intro hc
  obtain ⟨before, after, rfl⟩ := List.append_of_mem hc
  have one : List.replicate 1 c <:+: before ++ c :: after := ⟨before, after, by simp⟩
  have := le_longestRun one
  omega

/-! ## The form that is chosen -/

/-- What is no control character stands for itself in a literal string, but for quotes and line
breaks. -/
theorem literal_of_not_control (h : isControl c = false) :
    c = '\n' ∨ c = '\'' ∨ isLiteral c = true := by
  simp only [isControl, isLiteral] at *
  grind

/-- A text is written literally on one line for a reason. -/
theorem styleOf_eq_literal (h : styleOf cs = .literal) :
    cs.any isControl = false ∧ longestRun '\'' cs = 0 ∧ cs.contains '\n' = false := by
  simp only [styleOf] at h
  grind

theorem styleOf_eq_multilineLiteral (h : styleOf cs = .multilineLiteral) :
    cs.any isControl = false ∧ longestRun '\'' cs ≤ 2 := by
  simp only [styleOf] at h
  grind

theorem literal_of_no_controls (h : cs.any isControl = false) :
    ∀ c ∈ cs, c = '\n' ∨ c = '\'' ∨ isLiteral c = true := fun c hc =>
  literal_of_not_control (Bool.eq_false_iff.mpr fun control =>
    Bool.eq_false_iff.mp h (List.any_eq_true.mpr ⟨c, hc, control⟩))

/-- A text starts on a line of its own if it has a line break. -/
theorem starts_line (h : ts.head? = some '\n' → '\n' ∈ cs) :
    Starts (if '\n' ∈ cs then ['\n'] else []) ts := by
  split
  · exact .inl rfl
  next none => exact .inr ⟨rfl, mt h none⟩

/-- What is written begins with a line break for a text that has one. -/
theorem mem_of_head_spelled (h : Spelled m quotes cs ts) (line : ts.head? = some '\n') :
    '\n' ∈ cs := by
  cases h with
  | nil => cases line
  | quote => simp at line
  | char escaped =>
    obtain ⟨d, ds, rfl, -, -, stands⟩ := escaped.head
    obtain rfl := stands (Option.some.inj line)
    exact List.mem_cons_self

/-- **What is written stands for the string**, whatever it holds. -/
theorem isString_writeString (s : String) : IsString s (writeString s).toList := by
  cases h : styleOf s.toList with
  | basic =>
    have written : (writeString s).toList = '"' :: (escapes false 0 s.toList ++ ['"']) := by
      simp [writeString, h, Style.delimiter, Style.isMultiline, toList_escapeChars]
    exact written ▸ .basic (spelled_escapes false 0 s.toList)
  | literal =>
    have written : (writeString s).toList = '\'' :: (s.toList ++ ['\'']) := by
      simp [writeString, h, Style.delimiter, Style.isMultiline]
    obtain ⟨controls, quotes, lines⟩ := styleOf_eq_literal h
    refine written ▸ .literal fun c hc => ?_
    rcases literal_of_no_controls controls c hc with rfl | rfl | plain
    · exact absurd hc (by simpa using lines)
    · exact absurd hc (not_mem_of_longestRun quotes)
    · exact plain
  | multilineBasic =>
    have spelled := spelled_escapes true 0 s.toList
    have written : (writeString s).toList = '"' :: '"' :: '"' ::
        ((if '\n' ∈ s.toList then ['\n'] else []) ++ escapes true 0 s.toList ++
          ['"', '"', '"']) := by
      by_cases hn : '\n' ∈ s.toList <;>
        simp [writeString, h, Style.delimiter, Style.isMultiline, toList_escapeChars, hn]
    exact written ▸ .multilineBasic spelled (starts_line (mem_of_head_spelled spelled))
  | multilineLiteral =>
    have written : (writeString s).toList = '\'' :: '\'' :: '\'' ::
        ((if '\n' ∈ s.toList then ['\n'] else []) ++ s.toList ++ ['\'', '\'', '\'']) := by
      by_cases hn : '\n' ∈ s.toList <;>
        simp [writeString, h, Style.delimiter, Style.isMultiline, hn]
    obtain ⟨controls, quotes⟩ := styleOf_eq_multilineLiteral h
    have run : ¬ ['\'', '\'', '\''] <:+: s.toList := fun three =>
      absurd (le_longestRun (n := 3) three) (by omega)
    exact written ▸ .multilineLiteral (literal_of_no_controls controls) run
      (starts_line List.mem_of_mem_head?)

/-- The printer of the program writes a string without a long row of quotes. -/
theorem printString_prints
    (h : (['"', '\''].all fun quote => longestRun quote s.toList < 256) = true) :
    Prints printString s :=
  ⟨writeString s, if_pos h, isString_writeString s⟩

end ServerLink.Toml
