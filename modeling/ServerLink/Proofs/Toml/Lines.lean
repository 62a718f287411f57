import ServerLink.Proofs.Toml.Values

/-!
# Lines that are written and read

A document with a line for each entry is read as the table of these entries, in the same order
(`read?_lines`), also below a comment and above an empty line (`read?_commented`). The keys are bare
ones, no two of them the same.
-/

namespace ServerLink.Toml

variable {key : String} {text : String} {v : Toml} {r cs : List Char}

/-! ## Keys -/

/-- A key that is written without quotes. -/
structure IsBare (key : String) : Prop where
  nonempty : key.toList ≠ []
  all : ∀ c ∈ key.toList, isBareKey c = true

instance (key : String) : Decidable (IsBare key) :=
  decidable_of_iff (key.toList ≠ [] ∧ key.toList.all isBareKey = true)
    ⟨fun h => ⟨h.1, List.all_eq_true.mp h.2⟩, fun h => ⟨h.1, List.all_eq_true.mpr h.2⟩⟩

/-- A bare key begins with none of the characters that stand for something at the start of a line. -/
theorem IsBare.head (h : IsBare key) : ∃ c cs, key.toList = c :: cs ∧ isWhitespace c = false ∧
    c ∉ ['"', '\'', '[', '#', '\n', '\r', '\ufeff'] := by
  obtain ⟨c, cs, hk⟩ := List.exists_cons_of_ne_nil h.nonempty
  have bare : isBareKey c = true := h.all c (hk ▸ List.mem_cons_self)
  have other : ∀ d, isBareKey d = false → c ≠ d := by
    rintro d hd rfl
    rw [bare] at hd
    cases hd
  refine ⟨c, cs, hk, ?_, ?_⟩
  · simp [isWhitespace, other ' ' (by decide), other '\t' (by decide)]
  · intro hc
    simp only [List.mem_cons, List.not_mem_nil, or_false] at hc
    rcases hc with rfl | rfl | rfl | rfl | rfl | rfl | rfl <;> exact absurd bare (by decide)

theorem skipWhitespace_eq (h : ∀ c ∈ cs.head?, isWhitespace c = false) : skipWhitespace cs = cs := by
  cases cs with
  | nil => rfl
  | cons c cs => exact List.dropWhile_cons_of_neg (by simp [h c rfl])

theorem simpleKey_bare (h : IsBare key) :
    simpleKey (key.toList ++ ' ' :: r) = some (key, ' ' :: r) := by
  have before : (key.toList ++ ' ' :: r).takeWhile isBareKey = key.toList := by
    rw [List.takeWhile_append_of_pos h.all, List.takeWhile_cons_of_neg (by decide), List.append_nil]
  have after : (key.toList ++ ' ' :: r).dropWhile isBareKey = ' ' :: r := by
    rw [List.dropWhile_append_of_pos h.all, List.dropWhile_cons_of_neg (by decide)]
  obtain ⟨c, cs, hk, -, special⟩ := h.head
  rw [simpleKey]
  · simp only [before, after, String.ofList_toList]
    rw [if_neg (by simp [h.nonempty])]
  all_goals
    intro _ he
    rw [hk] at he
    obtain ⟨rfl, -⟩ := List.cons.inj he
    simp at special

theorem key_bare (h : IsBare key) :
    Toml.key (key.toList ++ ' ' :: '=' :: r) = some (([], key), '=' :: r) := by
  obtain ⟨c, cs, hk, blank, -⟩ := h.head
  have start : skipWhitespace (key.toList ++ ' ' :: '=' :: r) = key.toList ++ ' ' :: '=' :: r :=
    skipWhitespace_eq (by rw [hk]; rintro _ ⟨⟩; exact blank)
  have parts : dottedKey (maxDepth - 1) (key.toList ++ ' ' :: '=' :: r) = some ([key], '=' :: r) := by
    rw [show maxDepth - 1 = 78 + 1 from rfl, dottedKey, start, simpleKey_bare h]
    rfl
  rw [Toml.key, parts]
  rfl

/-! ## A line -/

theorem toList_writeEntry : (writeEntry key text).toList ++ r =
    key.toList ++ ' ' :: '=' :: ' ' :: (text.toList ++ '\n' :: r) := by
  simp [writeEntry]

theorem statement_entry (hk : IsBare key) (hv : Written text v) :
    statement ((writeEntry key text).toList ++ r) = some (.entry [] key v, r) := by
  obtain ⟨c, cs, hc, -, special⟩ := hk.head
  have value : skipWhitespace (' ' :: (text.toList ++ '\n' :: r)) = text.toList ++ '\n' :: r := by
    rw [skipWhitespace, List.dropWhile_cons_of_pos (by decide)]
    refine skipWhitespace_eq fun d hd => ?_
    cases ht : text.toList with
    | nil =>
      rw [ht] at hd
      obtain rfl := Option.some.inj hd
      rfl
    | cons e es => exact hv.opens d (by rw [ht] at hd ⊢; exact hd)
  rw [toList_writeEntry, statement]
  · rw [key_bare hk, Option.bind_eq_bind, Option.bind_some]
    simp only [expect, if_true, Option.bind_eq_bind, Option.bind_some, value, hv.reads]
    rfl
  all_goals
    intro _ he
    rw [hc] at he
    obtain ⟨rfl, -⟩ := List.cons.inj he
    simp at special

theorem statements_entry (fuel : Nat) (hk : IsBare key) (hv : Written text v) :
    statements (fuel + 1) ((writeEntry key text).toList ++ r) =
      (statements fuel r).map (.entry [] key v :: ·) := by
  obtain ⟨c, cs, hc, blank, special⟩ := hk.head
  have line : (writeEntry key text).toList ++ r =
      c :: (cs ++ ' ' :: '=' :: ' ' :: (text.toList ++ '\n' :: r)) := by
    rw [toList_writeEntry, hc, List.cons_append]
  have start : skipWhitespace ((writeEntry key text).toList ++ r) = (writeEntry key text).toList ++ r :=
    skipWhitespace_eq (by rw [line]; rintro _ ⟨⟩; exact blank)
  rw [statements, start]
  split
  case h_5 =>
    rw [statement_entry hk hv, Option.bind_eq_bind, Option.bind_some]
    exact Option.map_eq_bind.symm
  case h_1 he => simp [line] at he
  all_goals
    rename_i he
    rw [line] at he
    obtain ⟨rfl, -⟩ := List.cons.inj he
    simp at special

/-! ## A document -/

/-- Lines that stand for the entries of a table, which have bare keys. -/
inductive WrittenLines : List (String × String) → List (String × Toml) → Prop where
  | nil : WrittenLines [] []
  | cons {key text v lines entries} : IsBare key → Written text v → WrittenLines lines entries →
    WrittenLines ((key, text) :: lines) ((key, v) :: entries)

theorem WrittenLines.append {lines lines' : List (String × String)}
    {entries entries' : List (String × Toml)} (h : WrittenLines lines entries)
    (h' : WrittenLines lines' entries') : WrittenLines (lines ++ lines') (entries ++ entries') := by
  induction h with
  | nil => exact h'
  | cons hk hv _ ih => exact .cons hk hv ih

theorem WrittenLines.single (hk : IsBare key) (hv : Written text v) :
    WrittenLines [(key, text)] [(key, v)] := .cons hk hv .nil

/-- A line that is there if its value is. -/
theorem WrittenLines.optional {α : Type} {x : Option α} {write : α → String} {value : α → Toml}
    (hk : IsBare key) (hv : ∀ a ∈ x, Written (write a) (value a)) :
    WrittenLines ((x.map write).map fun text => (key, text)).toList
      (x.map fun a => (key, value a)).toList := by
  cases x with
  | none => exact .nil
  | some a => exact .single hk (hv a rfl)

/-- The text of lines. -/
def linesText (lines : List (String × String)) : String :=
  String.join (lines.map fun l => writeEntry l.1 l.2)

variable {lines : List (String × String)} {entries : List (String × Toml)}

theorem toList_linesText_cons (l : String × String) (lines : List (String × String)) :
    (linesText (l :: lines)).toList = (writeEntry l.1 l.2).toList ++ (linesText lines).toList := by
  simp [linesText, String.toList_join]

theorem length_le_linesText (lines : List (String × String)) :
    lines.length ≤ (linesText lines).toList.length := by
  induction lines with
  | nil => exact Nat.zero_le _
  | cons l lines ih =>
    have one : 1 ≤ (writeEntry l.1 l.2).toList.length := by
      simp only [writeEntry, String.toList_append, List.length_append]
      exact Nat.le_add_left 1 _
    rw [toList_linesText_cons, List.length_append, List.length_cons]
    omega

theorem statements_lines (h : WrittenLines lines entries) (fuel : Nat) (r : List Char) :
    statements (fuel + lines.length) ((linesText lines).toList ++ r) =
      (statements fuel r).map ((entries.map fun e => .entry [] e.1 e.2) ++ ·) := by
  induction h with
  | nil => simp [linesText]
  | cons hk hv _ ih =>
    rw [toList_linesText_cons, List.append_assoc, List.length_cons, ← Nat.add_assoc,
      statements_entry _ hk hv, ih]
    simp [Function.comp_def]

/-! ## The table -/

/-- An entry of the table that is being read, where nothing has its key. -/
theorem step_entry {b : Builder} (h : b.current.lookup key = none) :
    b.step (.entry [] key v) = some { b with current := b.current ++ [(key, .value v)] } := by
  simp [Builder.step, Entries.addValue, Entries.descend, h]

theorem foldl_entries (b : Builder)
    (h : (b.current.map Prod.fst ++ entries.map Prod.fst).Nodup) :
    (entries.map fun e => Statement.entry [] e.1 e.2).foldl (fun b s => b.bind (·.step s)) (some b) =
      some { b with current := b.current ++ entries.map fun e => (e.1, .value e.2) } := by
  induction entries generalizing b with
  | nil => simp
  | cons e entries ih =>
    have fresh : b.current.lookup e.1 = none := by
      rw [List.lookup_eq_none_iff]
      intro p hp
      rw [List.map_cons, List.nodup_append] at h
      have := h.2.2 p.1 (List.mem_map_of_mem hp) e.1 List.mem_cons_self
      simpa using this.symm
    have rest : ((b.current ++ [(e.1, Item.value e.2)]).map Prod.fst ++ entries.map Prod.fst).Nodup := by
      simpa using h
    rw [List.map_cons, List.foldl_cons, Option.bind_some, step_entry fresh, ih _ rest]
    simp

theorem entriesToToml_values (entries : List (String × Toml)) :
    entriesToToml (entries.map fun e => (e.1, .value e.2)) = entries := by
  induction entries with
  | nil => rfl
  | cons e entries ih => rw [List.map_cons, entriesToToml, ih, Item.toToml]

/-- Entries with different keys are the table that they stand for. -/
theorem build?_entries (h : (entries.map Prod.fst).Nodup) :
    build? (entries.map fun e => .entry [] e.1 e.2) = some entries := by
  rw [build?, foldl_entries {} (by simpa using h)]
  simp [Builder.close, entriesToToml_values]

/-! ## A document -/

theorem endLine_comment {comment : List Char} (h : ∀ c ∈ comment, isComment c = true) :
    endLine ('#' :: (comment ++ '\n' :: r)) = some r := by
  have rest : (comment ++ '\n' :: r).dropWhile isComment = '\n' :: r := by
    rw [List.dropWhile_append_of_pos h, List.dropWhile_cons_of_neg (by decide)]
  rw [endLine, skipWhitespace_eq (by rintro _ ⟨⟩; decide), skipComment, rest]
  rfl

theorem statements_comment {comment : List Char} (h : ∀ c ∈ comment, isComment c = true) (fuel : Nat) :
    statements (fuel + 1) ('#' :: (comment ++ '\n' :: r)) = statements fuel r := by
  rw [statements, skipWhitespace_eq (by rintro _ ⟨⟩; decide)]
  change endLine ('#' :: (comment ++ '\n' :: r)) >>= statements fuel = _
  rw [endLine_comment h]
  rfl

/-- A text that no byte order mark precedes. -/
theorem read?_eq {text : String} (h : '\ufeff' ∉ text.toList.head?) :
    read? text = statements (text.toList.length + 1) text.toList >>= build? := by
  rw [read?]
  split
  case h_1 r he => simp [he] at h
  case h_2 => rfl

/-- **Lines are read as the table that they stand for.** -/
theorem read?_lines (h : WrittenLines lines entries) (keys : (entries.map Prod.fst).Nodup) :
    read? (linesText lines) = some entries := by
  have mark : '\ufeff' ∉ (linesText lines).toList.head? := by
    cases h with
    | nil => simp [linesText]
    | cons hk _ _ =>
      obtain ⟨c, cs, hc, -, special⟩ := hk.head
      rw [toList_linesText_cons, toList_writeEntry, hc]
      rintro ⟨⟩
      simp at special
  obtain ⟨fuel, hf⟩ := Nat.exists_eq_add_of_le (length_le_linesText lines)
  have all := statements_lines h (fuel + 1) []
  rw [List.append_nil, Nat.add_right_comm, Nat.add_comm fuel, ← hf] at all
  rw [read?_eq mark, all, statements]
  simp [skipWhitespace, build?_entries keys]

/-- So are they below a comment and above an empty line. -/
theorem read?_commented (h : WrittenLines lines entries) (keys : (entries.map Prod.fst).Nodup)
    {comment : String} (hc : ∀ c ∈ comment.toList, isComment c = true) :
    read? ("#" ++ comment ++ "\n" ++ linesText lines ++ "\n") = some entries := by
  obtain ⟨fuel, hf⟩ := Nat.exists_eq_add_of_le (length_le_linesText lines)
  have text : ("#" ++ comment ++ "\n" ++ linesText lines ++ "\n").toList =
      '#' :: (comment.toList ++ '\n' :: ((linesText lines).toList ++ ['\n'])) := by simp
  have all := statements_lines h (fuel + comment.toList.length + 3) ['\n']
  have length : ("#" ++ comment ++ "\n" ++ linesText lines ++ "\n").toList.length + 1 =
      fuel + comment.toList.length + 3 + lines.length + 1 := by
    rw [text]
    simp only [List.length_cons, List.length_append, List.length_nil, hf]
    omega
  have last : statements (fuel + comment.toList.length + 3) ['\n'] = some [] := by
    simp [statements, skipWhitespace, isWhitespace]
  rw [read?_eq (by rw [text]; rintro ⟨⟩), length, text, statements_comment hc, all, last]
  simp [build?_entries keys]

end ServerLink.Toml
