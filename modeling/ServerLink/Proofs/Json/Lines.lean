import ServerLink.Json.Pieces
import ServerLink.Json.Reader

/-!
# Values on lines

The pieces of a value are its text (`join_pieces`), and there is no line break in it, since the
line breaks of a string are escaped (`newline_not_mem_render`). So values that are written one to a
line are found again by splitting the text at its line breaks (`splitOn_lines`).
-/

namespace ServerLink.Json

variable {s : String} {c : Char} {cs run : List Char} {v : Json}

/-! ## Strings -/

/-- What is written of a string is its escaped characters between quotes. -/
theorem putString_eq (out s : String) : putString out s =
    out ++ ("\"" ++ String.join (s.toList.map escape) ++ "\"") := by
  have hfold : ∀ (cs : List Char) (out : String),
      cs.foldl (fun out c => out ++ escape c) out = out ++ String.join (cs.map escape) := by
    intro cs
    induction cs with
    | nil => intro out; simp
    | cons c cs ih =>
      intro out
      rw [List.foldl_cons, ih, List.map_cons, String.join_cons, String.append_assoc]
  rw [putString, String.foldl_eq_foldl_toList, hfold]
  simp only [String.push_eq_append, String.append_assoc]
  rfl

theorem escape_of_isPlain (h : isPlain c = true) : escape c = c.toString := by
  have other : ∀ d, isPlain d = false → c ≠ d := by
    rintro d hd rfl
    exact absurd h (by simp [hd])
  have control : ¬ c < ' ' := by
    intro hc
    simp [isPlain, hc] at h
  simp only [escape, control, other '"' rfl, other '\\' rfl, other '\x08' (by decide),
    other '\x0c' (by decide), other '\n' (by decide), other '\r' (by decide),
    other '\t' (by decide), ↓reduceIte]

theorem join_runPiece (run : List Char) :
    String.join (runPiece run) = String.ofList run.reverse := by
  unfold runPiece
  split
  case isTrue h => simp [List.isEmpty_iff.mp h]
  case isFalse => simp

/-- Runs of plain characters and escapes are together the escaped characters. -/
theorem join_insidePieces (run cs : List Char) : String.join (insidePieces run cs) =
    String.ofList run.reverse ++ String.join (cs.map escape) := by
  fun_induction insidePieces run cs with
  | case1 run => simp [join_runPiece]
  | case2 run c cs plain ih =>
    rw [ih, List.map_cons, String.join_cons, escape_of_isPlain plain]
    simp [String.ext_iff]
  | case3 run c cs escaped ih =>
    rw [String.join_append, String.join_cons, ih, join_runPiece, List.map_cons, String.join_cons]
    simp

theorem join_stringPieces (s : String) : String.join (stringPieces s) =
    "\"" ++ String.join (s.toList.map escape) ++ "\"" := by
  simp [stringPieces, join_insidePieces, String.join_append, String.append_assoc]

/-! ## Values -/

theorem newline_compact (depth : Nat) (out : String) : compactStyle.newline depth out = out := rfl

theorem colon_compact : compactStyle.colon = ":" := rfl

theorem push_bracket (out : String) : out.push '[' = out ++ "[" ∧ out.push ']' = out ++ "]" ∧
    out.push '\x7b' = out ++ "\x7b" ∧ out.push '\x7d' = out ++ "\x7d" ∧
      out.push ',' = out ++ "," := by
  simp only [String.push_eq_append]
  exact ⟨rfl, rfl, rfl, rfl, rfl⟩

mutual

theorem put_eq (depth : Nat) : ∀ (v : Json) (out : String),
    put compactStyle depth v out = out ++ String.join (pieces v)
  | .null, out | .bool true, out | .bool false, out | .number n, out
  | .array [], out | .object [], out => by simp [put, pieces]
  | .string s, out => by rw [put, putString_eq, pieces, join_stringPieces, String.append_assoc]
  | .array (v :: vs), out => by
    simp only [put, pieces, newline_compact, push_bracket, putItems_eq, put_eq, String.join_cons,
      String.join_append, String.join_nil, String.append_assoc, List.cons_append,
      String.append_empty]
  | .object ((k, v) :: ms), out => by
    simp only [put, pieces, newline_compact, colon_compact, push_bracket, putMembers_eq, put_eq,
      putString_eq, join_stringPieces, String.join_cons, String.join_append, String.join_nil,
      String.append_assoc, List.cons_append, String.append_empty]

theorem putItems_eq (depth : Nat) : ∀ (vs : List Json) (out : String),
    putItems compactStyle depth vs out = out ++ String.join (itemPieces vs)
  | [], out => by simp [putItems, itemPieces]
  | v :: vs, out => by
    simp only [putItems, itemPieces, newline_compact, push_bracket, putItems_eq, put_eq,
      String.join_cons, String.join_append, String.append_assoc, List.cons_append]

theorem putMembers_eq (depth : Nat) : ∀ (ms : List (String × Json)) (out : String),
    putMembers compactStyle depth ms out = out ++ String.join (memberPieces ms)
  | [], out => by simp [putMembers, memberPieces]
  | (k, v) :: ms, out => by
    simp only [putMembers, memberPieces, newline_compact, colon_compact, push_bracket,
      putMembers_eq, put_eq, putString_eq, join_stringPieces, String.join_cons,
      String.join_append, String.append_assoc, List.cons_append]

end

/-- The pieces of a value are its text. -/
theorem join_pieces (v : Json) : String.join v.pieces = v.render := by
  rw [render, put_eq, String.empty_append]

/-! ## Numbers -/

theorem newline_not_mem_toDigits (n : Nat) : '\n' ∉ Nat.toDigits 10 n := fun h => by
  have digit : '\n'.isDigit = true := Nat.isDigit_of_mem_toDigits (by decide) (by decide) h
  cases digit

theorem newline_not_mem_repr (n : Nat) : '\n' ∉ (toString n).toList := by
  rw [show toString n = String.ofList (Nat.toDigits 10 n) from rfl, String.toList_ofList]
  exact newline_not_mem_toDigits n

theorem newline_not_mem_integer (i : Int) : '\n' ∉ (toString i).toList := by
  cases i with
  | ofNat n => exact newline_not_mem_repr n
  | negSucc n =>
    rw [show toString (Int.negSucc n) = "-" ++ toString (n + 1) from rfl, String.toList_append,
      List.mem_append, not_or]
    exact ⟨by decide, newline_not_mem_repr (n + 1)⟩

theorem newline_not_mem_shortest (x : Binary64) : '\n' ∉ x.shortest.digits := by
  unfold Binary64.shortest
  split
  · decide
  · dsimp only
    split
    · rename_i n _ _
      intro h
      have kept := List.mem_reverse.mp h
      exact newline_not_mem_toDigits n (List.mem_reverse.mp (List.dropWhile_subset _ kept))
    · decide

/-- The text of a decimal is made of its digits, zeros, the layout's marks and an exponent. -/
theorem newline_not_mem_decimal (d : Decimal) (h : '\n' ∉ d.digits) :
    '\n' ∉ (d.text Number.layout).toList := by
  have taken : ∀ n, '\n' ∉ d.digits.take n := fun n hn => h (List.take_subset n _ hn)
  have dropped : ∀ n, '\n' ∉ d.digits.drop n := fun n hn => h (List.drop_subset n _ hn)
  have rest : '\n' ∉ d.digits.tail := fun ht => h (List.mem_of_mem_tail ht)
  unfold Decimal.text
  dsimp only
  repeat' split
  all_goals
    simp [Decimal.zeros, Number.layout, h, taken, dropped, rest, newline_not_mem_toDigits]

theorem newline_not_mem_number (n : Number) : '\n' ∉ n.text.toList := by
  cases n with
  | integer i _ => exact newline_not_mem_integer i
  | float x =>
    rw [Number.text, Number.floatText, String.toList_append, List.mem_append, not_or]
    refine ⟨?_, newline_not_mem_decimal _ (newline_not_mem_shortest x)⟩
    split <;> decide

/-! ## No line breaks -/

/-- A line break in a string is escaped, and so is nothing written as one. -/
theorem newline_not_mem_escape (c : Char) : '\n' ∉ (escape c).toList := by
  have hex : ∀ n, '\n' ≠ hexDigit n := fun n => by
    unfold hexDigit
    have : n % 16 < 16 := Nat.mod_lt n (by decide)
    generalize n % 16 = m at this
    decide +revert
  unfold escape
  iterate 7 (split; · decide)
  split
  · simp [hex]
  · rename_i newline _ _ _
    simpa using Ne.symm newline

theorem newline_not_mem_string (s : String) : ∀ p ∈ stringPieces s, '\n' ∉ p.toList := by
  have text : '\n' ∉ (String.join (stringPieces s)).toList := by
    simp [join_stringPieces, newline_not_mem_escape]
  simpa using text

mutual

theorem newline_not_mem_pieces : ∀ v : Json, ∀ p ∈ pieces v, '\n' ∉ p.toList
  | .null | .bool true | .bool false | .array [] | .object [] => by simp [pieces]
  | .number n => by simpa [pieces] using newline_not_mem_number n
  | .string s => newline_not_mem_string s
  | .array (v :: vs) => by
    have first := newline_not_mem_pieces v
    have others := newline_not_mem_itemPieces vs
    simpa [pieces, or_imp, forall_and] using ⟨first, others⟩
  | .object ((k, v) :: ms) => by
    have key := newline_not_mem_string k
    have first := newline_not_mem_pieces v
    have others := newline_not_mem_memberPieces ms
    simpa [pieces, or_imp, forall_and] using ⟨key, first, others⟩

theorem newline_not_mem_itemPieces : ∀ vs : List Json, ∀ p ∈ itemPieces vs, '\n' ∉ p.toList
  | [] => by simp [itemPieces]
  | v :: vs => by
    have first := newline_not_mem_pieces v
    have others := newline_not_mem_itemPieces vs
    simpa [itemPieces, or_imp, forall_and] using ⟨first, others⟩

theorem newline_not_mem_memberPieces :
    ∀ ms : List (String × Json), ∀ p ∈ memberPieces ms, '\n' ∉ p.toList
  | [] => by simp [memberPieces]
  | (k, v) :: ms => by
    have key := newline_not_mem_string k
    have first := newline_not_mem_pieces v
    have others := newline_not_mem_memberPieces ms
    simpa [memberPieces, or_imp, forall_and] using ⟨key, first, others⟩

end

/-- The text of a value is on one line. -/
theorem newline_not_mem_render (v : Json) : '\n' ∉ v.render.toList := by
  rw [← join_pieces]
  simpa using newline_not_mem_pieces v

/-! ## Lines -/

/-- The texts of some values, each on a line of its own. -/
def lines (vs : List Json) : String := String.join (vs.map fun v => v.render ++ "\n")

theorem lines_singleton (v : Json) : lines [v] = v.render ++ "\n" := by simp [lines]

theorem lines_append (vs ws : List Json) : lines (vs ++ ws) = lines vs ++ lines ws := by
  simp [lines, String.join_append]

/-- Values are on lines of their own, also if a line that is broken off follows. -/
theorem splitOn_lines {part : String} (hpart : '\n' ∉ part.toList) (vs : List Json) :
    (lines vs ++ part).toList.splitOn '\n' = vs.map (·.render.toList) ++ [part.toList] := by
  induction vs with
  | nil => simpa [lines] using List.splitOn_eq_singleton hpart
  | cons v vs ih =>
    have text : (lines (v :: vs) ++ part).toList =
        v.render.toList ++ '\n' :: (lines vs ++ part).toList := by
      simp [lines]
    rw [text, List.splitOn_append_cons_self_of_not_mem (newline_not_mem_render v), ih]
    rfl

/-- The values on the lines of a text, without what is behind the last line break. -/
def onLines (text : String) : List (Option Json) :=
  (text.toList.splitOn '\n').dropLast.map fun cs => read? (String.ofList cs)

/-- Values that are read back from their texts are read back from lines. -/
theorem onLines_lines {part : String} (hpart : '\n' ∉ part.toList) {vs : List Json}
    (h : ∀ v ∈ vs, read? v.render = some v) : onLines (lines vs ++ part) = vs.map some := by
  rw [onLines, splitOn_lines hpart, List.dropLast_concat, List.map_map]
  exact List.map_congr_left fun v hv => by simp [h v hv]

end ServerLink.Json
