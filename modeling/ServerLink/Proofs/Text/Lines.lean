import Mathlib.Data.List.DropRight
import ServerLink.Proofs.Text.Utf8
import ServerLink.Text.Blank

/-!
# The first line of bytes

A line break is one byte, which is inside of no encoding: it ends the one that is begun, and is no
part of a longer one. So the bytes before the first line break are read as the first line
(`takeWhile_decodeLossy`, `decode?_firstLine`), whatever comes after it.
-/

namespace ServerLink.Text

/-- The byte that breaks lines. -/
def lineBreak : UInt8 := 0x0A

/-- The bytes before the first line break. -/
def firstLine (bs : List UInt8) : List UInt8 := bs.takeWhile (· ≠ lineBreak)

/-! ## Encodings begun -/

/-- The encoding will be of a character behind ASCII's, and no line break goes on with it. -/
structure Partial.Sound (p : Partial) : Prop where
  low : 0x80 ≤ p.low.toNat
  high : p.high.toNat ≤ 0xBF
  wide : 0x80 ≤ (p.bits * 64 + p.low.toNat % 64) * 64 ^ (p.left - 1)

/-- Outside of an encoding, or inside of a sound one. -/
def IsSound (inside : Option Partial) : Prop := ∀ p, inside = some p → p.Sound

theorem isSound_none : IsSound none := by simp [IsSound]

variable {b : UInt8} {bs : List UInt8} {p : Partial} {inside : Option Partial}

/-- The first byte of an encoding leads into a sound one. -/
theorem sound_of_lead {left : Nat} {low high : UInt8} (h : lead? b = some (left, low, high)) :
    Partial.Sound ⟨left, low, high, b.toNat % 2 ^ (6 - left)⟩ := by
  simp only [lead?, UInt8.le_iff_toNat_le, ← UInt8.toNat_inj, UInt8.reduceToNat] at h
  repeat' split at h
  case' isFalse => cases h
  all_goals
    cases h
    constructor <;> simp only [UInt8.reduceToNat] <;> omega

variable (hp : p.Sound) (hl : p.low ≤ b) (hh : b ≤ p.high)
include hp hl hh

/-- A byte that goes on with an encoding adds to its bits. -/
theorem Partial.Sound.wider :
    0x80 ≤ (p.bits * 64 + b.toNat % 64) * 64 ^ (p.left - 1) := by
  have low := hp.low
  have high := hp.high
  rw [UInt8.le_iff_toNat_le] at hl hh
  have more : p.low.toNat % 64 ≤ b.toNat % 64 := by omega
  exact Nat.le_trans hp.wide (Nat.mul_le_mul_right _ (by omega))

theorem Partial.Sound.next (more : ¬ p.left ≤ 1) :
    Partial.Sound ⟨p.left - 1, 0x80, 0xBF, p.bits * 64 + b.toNat % 64⟩ := by
  have wider := hp.wider hl hh
  refine ⟨Nat.le_refl _, Nat.le_refl _, ?_⟩
  have power : 64 ^ (p.left - 1) = 64 * 64 ^ (p.left - 1 - 1) := by
    rw [← Nat.pow_succ']
    congr 1
    omega
  rw [power, ← Nat.mul_assoc] at wider
  simpa using wider

/-- What an encoding of several bytes encodes is no line break. -/
theorem Partial.Sound.last (done : p.left ≤ 1) :
    Char.ofNat (p.bits * 64 + b.toNat % 64) ≠ '\n' := by
  have wider := hp.wider hl hh
  rw [show p.left - 1 = 0 by omega, Nat.pow_zero, Nat.mul_one] at wider
  generalize p.bits * 64 + b.toNat % 64 = n at wider
  intro h
  by_cases valid : n.isValidChar
  · rw [Char.ofNat, dif_pos valid] at h
    have same : n = 10 := congrArg Char.toNat h
    omega
  · rw [Char.ofNat, dif_neg valid] at h
    exact absurd h (by decide)

omit hp hl hh

/-! ## One byte more -/

/-- A byte outside of an encoding ends some pieces, whatever follows. -/
theorem pieces_outside (b : UInt8) : ∃ front next, IsSound next ∧
    (b ≠ lineBreak → some '\n' ∉ front) ∧ ∀ bs, pieces.first b bs = front ++ pieces next bs := by
  by_cases ascii : b < 0x80
  · refine ⟨[some (Char.ofNat b.toNat)], none, isSound_none, fun hb hmem => hb ?_, fun bs => ?_⟩
    · have same : '\n' = Char.ofNat b.toNat := Option.some.inj (List.mem_singleton.mp hmem)
      have small : b.toNat < 128 := UInt8.lt_iff_toNat_lt.mp ascii
      have valid : b.toNat.isValidChar := .inl (Nat.lt_trans small (by decide))
      have code : (Char.ofNat b.toNat).toNat = b.toNat := by
        rw [Char.ofNat, dif_pos valid]
        rfl
      rw [← same] at code
      exact UInt8.toNat_inj.mp code.symm
    · rw [pieces.first, if_pos ascii]
      rfl
  · cases lead : lead? b with
    | some l =>
      refine ⟨[], some ⟨l.1, l.2.1, l.2.2, b.toNat % 2 ^ (6 - l.1)⟩, fun p hp => ?_, by simp,
        fun bs => ?_⟩
      · cases hp
        exact sound_of_lead lead
      · rw [pieces.first, if_neg ascii, lead]
        rfl
    | none =>
      refine ⟨[none], none, isSound_none, by simp, fun bs => ?_⟩
      rw [pieces.first, if_neg ascii, lead]
      rfl

/-- A byte ends some pieces and leaves the reader somewhere, whatever follows. -/
theorem pieces_cons (hin : IsSound inside) (b : UInt8) : ∃ front next, IsSound next ∧
    (b ≠ lineBreak → some '\n' ∉ front) ∧
      ∀ bs, pieces inside (b :: bs) = front ++ pieces next bs := by
  obtain ⟨front, next, sound, unbroken, outside⟩ := pieces_outside b
  cases inside with
  | none =>
    refine ⟨front, next, sound, unbroken, fun bs => ?_⟩
    rw [← outside, pieces]
  | some p =>
    have hp : p.Sound := hin p rfl
    by_cases goes : p.low ≤ b ∧ b ≤ p.high
    · by_cases done : p.left ≤ 1
      · refine ⟨[some (Char.ofNat (p.bits * 64 + b.toNat % 64))], none, isSound_none,
          fun _ hmem => ?_, fun bs => ?_⟩
        · exact hp.last goes.1 goes.2 done (Option.some.inj (List.mem_singleton.mp hmem)).symm
        · simp only [pieces, goes, and_self, if_true, done, List.singleton_append]
      · refine ⟨[], some ⟨p.left - 1, 0x80, 0xBF, p.bits * 64 + b.toNat % 64⟩, fun q hq => ?_,
          by simp, fun bs => ?_⟩
        · cases hq
          exact hp.next goes.1 goes.2 done
        · simp only [pieces, goes, and_self, if_true, done, if_false, List.nil_append]
    · refine ⟨none :: front, next, sound, fun hb => ?_, fun bs => ?_⟩
      · simpa using unbroken hb
      · rw [List.cons_append, ← outside, pieces, if_neg goes]

/-! ## Lines -/

/-- A line break ends the encoding that is begun. -/
theorem pieces_lineBreak (hin : IsSound inside) (bs : List UInt8) :
    pieces inside (lineBreak :: bs) = pieces inside [] ++ some '\n' :: pieces none bs := by
  have outside : pieces.first lineBreak bs = some '\n' :: pieces none bs := by
    rw [pieces.first, if_pos (by decide)]
    rfl
  cases inside with
  | none =>
    have nothing : pieces none [] = [] := by rw [pieces]; rfl
    rw [nothing, List.nil_append, ← outside, pieces]
  | some p =>
    have broken : pieces (some p) [] = [none] := by rw [pieces]; rfl
    have ends : ¬ (p.low ≤ lineBreak ∧ lineBreak ≤ p.high) := by
      have low := (hin p rfl).low
      rw [UInt8.le_iff_toNat_le, show lineBreak.toNat = 10 from rfl]
      omega
    rw [broken, List.singleton_append, ← outside, pieces, if_neg ends]

/-- The bytes before a line break and those after it are read apart. -/
theorem pieces_append_lineBreak (hin : IsSound inside) (head rest : List UInt8) :
    pieces inside (head ++ lineBreak :: rest) =
      pieces inside head ++ some '\n' :: pieces none rest := by
  induction head generalizing inside with
  | nil => exact pieces_lineBreak hin rest
  | cons b head ih =>
    obtain ⟨front, next, sound, -, hfront⟩ := pieces_cons hin b
    rw [List.cons_append, hfront, hfront, ih sound, List.append_assoc]

/-- No line break is read from bytes without one. -/
theorem newline_not_mem_pieces (hin : IsSound inside) {head : List UInt8} (h : lineBreak ∉ head) :
    some '\n' ∉ pieces inside head := by
  induction head generalizing inside with
  | nil =>
    rw [pieces]
    split <;> simp
  | cons b head ih =>
    obtain ⟨front, next, sound, unbroken, hfront⟩ := pieces_cons hin b
    rw [List.mem_cons, not_or] at h
    rw [hfront, List.mem_append, not_or]
    exact ⟨unbroken (Ne.symm h.1), ih sound h.2⟩

theorem lineBreak_not_mem_firstLine (bs : List UInt8) : lineBreak ∉ firstLine bs := by
  intro h
  simpa using List.mem_takeWhile_imp h

/-- Bytes are their first line alone, or a line break and more bytes follow it. -/
theorem firstLine_cases (bs : List UInt8) :
    bs = firstLine bs ∨ ∃ rest, bs = firstLine bs ++ lineBreak :: rest := by
  have parts : firstLine bs ++ bs.dropWhile (· ≠ lineBreak) = bs := List.takeWhile_append_dropWhile
  cases hrest : bs.dropWhile (· ≠ lineBreak) with
  | nil =>
    rw [hrest, List.append_nil] at parts
    exact .inl parts.symm
  | cons b rest =>
    have hb : b = lineBreak := by
      have first := List.head?_dropWhile_not (· ≠ lineBreak) bs
      rw [hrest] at first
      simpa using first
    rw [hrest, hb] at parts
    exact .inr ⟨rest, parts.symm⟩

/-- The characters before a line break. -/
theorem takeWhile_newline {front : List Char} (h : '\n' ∉ front) :
    front.takeWhile (· ≠ '\n') = front ∧
      ∀ back, (front ++ '\n' :: back).takeWhile (· ≠ '\n') = front := by
  have all : ∀ c ∈ front, decide (c ≠ '\n') = true :=
    fun c hc => decide_eq_true (ne_of_mem_of_not_mem hc h)
  refine ⟨List.takeWhile_eq_self_iff.mpr all, fun back => ?_⟩
  rw [List.takeWhile_append_of_pos all]
  simp

/-- **The first line of bytes that need not be a text** is what its own bytes are read as. -/
theorem takeWhile_decodeLossy (bs : List UInt8) :
    (decodeLossy bs).toList.takeWhile (· ≠ '\n') = (decodeLossy (firstLine bs)).toList := by
  have clean : '\n' ∉ (pieces none (firstLine bs)).map (·.getD '\ufffd') := by
    intro hmem
    obtain ⟨piece, hpiece, same⟩ := List.mem_map.mp hmem
    cases piece with
    | none => exact absurd same (by decide)
    | some c =>
      cases same
      exact newline_not_mem_pieces isSound_none (lineBreak_not_mem_firstLine bs) hpiece
  simp only [decodeLossy, String.toList_ofList]
  rcases firstLine_cases bs with hbs | ⟨rest, hbs⟩
  · rw [← hbs] at clean ⊢
    exact (takeWhile_newline clean).1
  · conv => lhs; rw [hbs]
    rw [pieces_append_lineBreak isSound_none, List.map_append, List.map_cons]
    exact (takeWhile_newline clean).2 _

theorem mapM_id_eq_some {l : List (Option Char)} {cs : List Char} :
    l.mapM id = some cs ↔ l = cs.map some := by
  induction l generalizing cs with
  | nil => cases cs <;> simp
  | cons c l ih =>
    cases c with
    | none => cases cs <;> simp
    | some c =>
      simp only [List.mapM_cons, id, Option.bind_eq_bind, Option.bind_some, Option.pure_def,
        Option.bind_eq_some_iff, Option.some.injEq, ih]
      constructor
      · rintro ⟨rest, rfl, rfl⟩
        rfl
      · intro h
        cases cs with
        | nil => cases h
        | cons d cs =>
          obtain ⟨same, hrest⟩ := List.cons.inj h
          cases same
          exact ⟨cs, hrest, rfl⟩

theorem decode?_eq_some {bs : List UInt8} {text : String} :
    decode? bs = some text ↔ pieces none bs = text.toList.map some := by
  rw [← mapM_id_eq_some, decode?, Option.map_eq_some_iff]
  constructor
  · rintro ⟨cs, hcs, rfl⟩
    rwa [String.toList_ofList]
  · intro h
    exact ⟨_, h, String.ofList_toList⟩

theorem decodeLossy_of_decode? {bs : List UInt8} {text : String} (h : decode? bs = some text) :
    decodeLossy bs = text := by
  rw [decodeLossy, decode?_eq_some.mp h, List.map_map]
  simp [Function.comp_def, String.ofList_toList]

/-- **The first line of a text** is the text of its own bytes. -/
theorem decode?_firstLine {bs : List UInt8} {text : String} (h : decode? bs = some text) :
    ∃ line, decode? (firstLine bs) = some line ∧
      text.toList.takeWhile (· ≠ '\n') = line.toList := by
  have readable : ∃ line, decode? (firstLine bs) = some line := by
    rcases firstLine_cases bs with hbs | ⟨rest, hbs⟩
    · exact ⟨text, hbs ▸ h⟩
    · rw [decode?_eq_some, hbs, pieces_append_lineBreak isSound_none] at h
      obtain ⟨front, back, -, hfront, -⟩ := List.map_eq_append_iff.mp h.symm
      exact ⟨String.ofList front, decode?_eq_some.mpr (by rw [String.toList_ofList, hfront])⟩
  obtain ⟨line, hline⟩ := readable
  refine ⟨line, hline, ?_⟩
  rw [← decodeLossy_of_decode? h, ← decodeLossy_of_decode? hline]
  exact takeWhile_decodeLossy bs

end ServerLink.Text
