import ServerLink.Json.Reader
import ServerLink.Text.Blank

/-!
# Blank texts

A text of blank characters alone is no document, whether the lexer passes over them or takes them
for a word (`read?_of_allBlank`).
-/

namespace ServerLink.Json

theorem ne_of_isBlank {c d : Char} (h : Text.isBlank c = true) (hd : Text.isBlank d = false) :
    c ≠ d := by
  rintro rfl
  rw [h] at hd
  cases hd

theorem isDigit_of_isBlank {c : Char} (h : Text.isBlank c = true) : c.isDigit = false := by
  simp only [Text.isBlank, Text.within, Text.blankRanges, List.any_cons, List.any_nil,
    Bool.or_false, Bool.or_eq_true, Bool.and_eq_true, decide_eq_true_eq] at h
  have h0 : '0'.val.toNat = 48 := rfl
  have h9 : '9'.val.toNat = 57 := rfl
  have hv : c.val.toNat = c.toNat := rfl
  simp only [Char.isDigit, Bool.and_eq_false_iff, decide_eq_false_iff_not, ge_iff_le,
    UInt32.le_iff_toNat_le, h0, h9, hv]
  omega

namespace Lexer

theorem punctuation?_of_isBlank {c : Char} (h : Text.isBlank c = true) : punctuation? c = none := by
  unfold punctuation?
  split
  iterate 6 exact absurd h (by decide)
  rfl

/-- A literal does not begin with a blank character. -/
theorem literal?_of_isBlank {c : Char} (h : Text.isBlank c = true) (cs : List Char) :
    literal? (c :: cs) = none := by
  have hne : ∀ d, Text.isBlank d = false → c ≠ d := fun d => ne_of_isBlank h
  have hnumeral : Numeral.ofChars? (c :: cs) = none := by
    have hdigits : Numeral.digits? (c :: cs) = none := by
      simp [Numeral.digits?, isDigit_of_isBlank h]
    unfold Numeral.ofChars?
    split
    rename_i negative rest he
    split at he
    · rename_i hc
      cases hc
      exact absurd rfl (hne '-' (by decide))
    · cases he
      simp [hdigits]
  unfold literal?
  simp [hne 'n' (by decide), hne 't' (by decide), hne 'f' (by decide), Number.read?, hnumeral]

/-- Where the lexer can be among blank characters. -/
def AmongBlanks (st : Option State) : Prop :=
  st = none ∨ st = some {} ∨
    ∃ c w, Text.isBlank c = true ∧ st = some ⟨[], .word (w ++ [c])⟩

theorem amongBlanks_step {st : State} (h : AmongBlanks (some st)) {c : Char}
    (hc : Text.isBlank c = true) : AmongBlanks (step st c) := by
  have hquote : c ≠ '"' := ne_of_isBlank hc (by decide)
  rcases h with h | h | ⟨d, w, hd, h⟩
  · cases h
  · cases h
    show AmongBlanks (some (start [] c))
    simp only [start, punctuation?_of_isBlank hc, hquote, ↓reduceIte]
    split
    · exact .inr (.inl rfl)
    · -- what is blank but no space between tokens begins a word
      exact .inr (.inr ⟨c, [], hc, rfl⟩)
  · cases h
    simp only [step]
    split
    · left
      simp [endWord, literal?_of_isBlank hd]
    · exact .inr (.inr ⟨d, c :: w, hd, rfl⟩)

theorem amongBlanks_foldl {st : Option State} (h : AmongBlanks st) {cs : List Char}
    (hcs : ∀ c ∈ cs, Text.isBlank c = true) :
    AmongBlanks (cs.foldl (fun st c => st.bind (step · c)) st) := by
  induction cs generalizing st with
  | nil => exact h
  | cons c cs ih =>
    refine ih ?_ fun d hd => hcs d (List.mem_cons_of_mem _ hd)
    cases st with
    | none => exact .inl rfl
    | some st => exact amongBlanks_step h (hcs c List.mem_cons_self)

end Lexer

theorem tokens?_eq (text : String) : tokens? text =
    (text.toList.foldl (fun st c => st.bind (Lexer.step · c)) (some {})) >>= Lexer.finish := by
  rw [tokens?, Lexer.run, String.foldl_eq_foldl_toList]

theorem tokens?_of_allBlank {text : String} (h : Text.allBlank text = true) :
    tokens? text = none ∨ tokens? text = some [] := by
  rw [Text.allBlank, String.all_bool_eq, List.all_eq_true] at h
  have hrun := Lexer.amongBlanks_foldl (.inr (.inl rfl)) h
  rw [tokens?_eq]
  rcases hrun with hr | hr | ⟨c, w, hc, hr⟩ <;> rw [hr]
  · exact .inl rfl
  · exact .inr rfl
  · left
    simp [Lexer.finish, Lexer.endWord, Lexer.literal?_of_isBlank hc]

/-- A blank text is no document. -/
theorem read?_of_allBlank {text : String} (h : Text.allBlank text = true) :
    read? text = none := by
  unfold read?
  rcases tokens?_of_allBlank h with ht | ht <;> rw [ht] <;> rfl

end ServerLink.Json
