import ServerLink.Text.Utf8

/-!
# Text as bytes and back

`decode?_bytesOf`: the bytes of a text encode this text. A character has one of four lengths. The
first byte says how many follow, and bounds the second one, so that no character is written longer
than it has to be and none is half of a pair; these bounds are where a character's own bounds come
in.
-/

namespace ServerLink.Text

variable {b : UInt8} {bs : List UInt8}

/-! ## Byte by byte -/

theorem pieces_ascii (h : b.toNat < 0x80) :
    pieces none (b :: bs) = some (Char.ofNat b.toNat) :: pieces none bs := by
  rw [pieces, pieces.first, if_pos (UInt8.lt_iff_toNat_lt.mpr h)]

/-- The first byte of several. -/
theorem pieces_lead {left : Nat} {low high : UInt8} (h : 0x80 ≤ b.toNat)
    (lead : lead? b = some (left, low, high)) :
    pieces none (b :: bs) = pieces (some ⟨left, low, high, b.toNat % 2 ^ (6 - left)⟩) bs := by
  have wide : ¬ b < 0x80 := by
    rw [UInt8.lt_iff_toNat_lt]
    exact Nat.not_lt.mpr h
  rw [pieces, pieces.first, if_neg wide, lead]

variable {left bits : Nat} {low high : UInt8}

/-- A byte that others follow. -/
theorem pieces_next (hl : low ≤ b) (hh : b ≤ high) (more : 1 < left) :
    pieces (some ⟨left, low, high, bits⟩) (b :: bs) =
      pieces (some ⟨left - 1, 0x80, 0xBF, bits * 64 + b.toNat % 64⟩) bs := by
  rw [pieces]
  simp only [hl, hh, and_self, if_true, if_neg (Nat.not_le.mpr more)]

/-- The last byte. -/
theorem pieces_last (hl : low ≤ b) (hh : b ≤ high) :
    pieces (some ⟨1, low, high, bits⟩) (b :: bs) =
      some (Char.ofNat (bits * 64 + b.toNat % 64)) :: pieces none bs := by
  rw [pieces]
  simp only [hl, hh, and_self, if_true, Nat.le_refl]

/-! ## First bytes -/

theorem lead?_two (hl : 0xC2 ≤ b.toNat) (hh : b.toNat ≤ 0xDF) : lead? b = some (1, 0x80, 0xBF) := by
  rw [lead?, if_pos ⟨UInt8.le_iff_toNat_le.mpr hl, UInt8.le_iff_toNat_le.mpr hh⟩]

/-- Before two more bytes the second one is bounded where the first is lowest, and at the halves of
pairs. -/
theorem lead?_three (hl : 0xE0 ≤ b.toNat) (hh : b.toNat ≤ 0xEF) :
    lead? b = some (2, if b.toNat = 0xE0 then 0xA0 else 0x80, if b.toNat = 0xED then 0x9F else 0xBF) := by
  simp only [lead?, UInt8.le_iff_toNat_le, ← UInt8.toNat_inj, UInt8.reduceToNat]
  grind

/-- Before three more bytes the second one is bounded where the first is lowest, and where it is
highest. -/
theorem lead?_four (hl : 0xF0 ≤ b.toNat) (hh : b.toNat ≤ 0xF4) :
    lead? b = some (3, if b.toNat = 0xF0 then 0x90 else 0x80, if b.toNat = 0xF4 then 0x8F else 0xBF) := by
  simp only [lead?, UInt8.le_iff_toNat_le, ← UInt8.toNat_inj, UInt8.reduceToNat]
  grind

/-! ## Characters -/

theorem toNat_byte {n : Nat} (h : n < 256) : (UInt8.ofNat n).toNat = n := by
  rw [UInt8.toNat_ofNat', Nat.mod_eq_of_lt h]

/-- The byte for the lowest six bits of a number, where others precede it. -/
def tail (n : Nat) : UInt8 := UInt8.ofNat (n % 0x40 + 0x80)

theorem toNat_tail (n : Nat) : (tail n).toNat = n % 0x40 + 0x80 := toNat_byte (by omega)

theorem le_tail (n : Nat) : 0x80 ≤ tail n := by
  rw [UInt8.le_iff_toNat_le, toNat_tail]
  exact Nat.le_add_left _ _

theorem tail_le (n : Nat) : tail n ≤ 0xBF := by
  rw [UInt8.le_iff_toNat_le, toNat_tail]
  exact Nat.add_le_add_right (Nat.le_of_lt_succ (Nat.mod_lt n (by decide))) 0x80

theorem pieces_next_tail (n : Nat) (hl : low ≤ tail n) (hh : tail n ≤ high) (more : 1 < left) :
    pieces (some ⟨left, low, high, bits⟩) (tail n :: bs) =
      pieces (some ⟨left - 1, 0x80, 0xBF, bits * 64 + n % 64⟩) bs := by
  rw [pieces_next hl hh more, toNat_tail, show (n % 0x40 + 0x80) % 64 = n % 64 by omega]

theorem pieces_last_tail (n : Nat) :
    pieces (some ⟨1, 0x80, 0xBF, bits⟩) (tail n :: bs) =
      some (Char.ofNat (bits * 64 + n % 64)) :: pieces none bs := by
  rw [pieces_last (le_tail n) (tail_le n), toNat_tail, show (n % 0x40 + 0x80) % 64 = n % 64 by omega]

variable {n : Nat}

theorem pieces_two (hl : 0x7F < n) (hh : n ≤ 0x7FF) :
    pieces none (UInt8.ofNat (n / 64 % 0x20 + 0xC0) :: tail n :: bs) =
      some (Char.ofNat n) :: pieces none bs := by
  have first : (UInt8.ofNat (n / 64 % 0x20 + 0xC0)).toNat = n / 64 + 0xC0 := by
    rw [toNat_byte (by omega)]
    omega
  rw [pieces_lead (by omega) (lead?_two (by omega) (by omega)), pieces_last_tail, first]
  congr 3
  omega

theorem pieces_three (hl : 0x7FF < n) (hh : n ≤ 0xFFFF) (valid : n < 0xD800 ∨ 0xDFFF < n) :
    pieces none (UInt8.ofNat (n / 4096 % 0x10 + 0xE0) :: tail (n / 64) :: tail n :: bs) =
      some (Char.ofNat n) :: pieces none bs := by
  have first : (UInt8.ofNat (n / 4096 % 0x10 + 0xE0)).toNat = n / 4096 + 0xE0 := by
    rw [toNat_byte (by omega)]
    omega
  rw [pieces_lead (by omega) (lead?_three (by omega) (by omega)),
    pieces_next_tail (n / 64) ?low ?high (by decide), pieces_last_tail, first]
  case low | high =>
    rw [UInt8.le_iff_toNat_le, toNat_tail, first]
    split <;> simp only [UInt8.reduceToNat] <;> omega
  congr 3
  omega

theorem pieces_four (hl : 0xFFFF < n) (hh : n < 0x110000) :
    pieces none (UInt8.ofNat (n / 262144 % 0x08 + 0xF0) :: tail (n / 4096) :: tail (n / 64) ::
      tail n :: bs) = some (Char.ofNat n) :: pieces none bs := by
  have first : (UInt8.ofNat (n / 262144 % 0x08 + 0xF0)).toNat = n / 262144 + 0xF0 := by
    rw [toNat_byte (by omega)]
    omega
  rw [pieces_lead (by omega) (lead?_four (by omega) (by omega)),
    pieces_next_tail (n / 4096) ?low ?high (by decide),
    pieces_next_tail (n / 64) (le_tail _) (tail_le _) (by decide), pieces_last_tail, first]
  case low | high =>
    rw [UInt8.le_iff_toNat_le, toNat_tail, first]
    split <;> simp only [UInt8.reduceToNat] <;> omega
  congr 3
  omega

/-- What a character is encoded as is read as this character. -/
theorem pieces_char (c : Char) :
    pieces none (String.utf8EncodeChar c ++ bs) = some c :: pieces none bs := by
  have valid : c.toNat < 0xD800 ∨ 0xDFFF < c.toNat ∧ c.toNat < 0x110000 := c.valid
  have back : some c = some (Char.ofNat c.toNat) := by rw [Char.ofNat_toNat]
  rw [back]
  change pieces none ((if c.toNat ≤ 0x7F then _ else if c.toNat ≤ 0x7FF then _
    else if c.toNat ≤ 0xFFFF then _ else _) ++ bs) = _
  split
  case isTrue one =>
    have first : (UInt8.ofNat c.toNat).toNat = c.toNat := toNat_byte (by omega)
    have ascii : pieces none (UInt8.ofNat c.toNat :: bs) = _ := pieces_ascii (by omega)
    rwa [first] at ascii
  case isFalse one =>
  split
  case isTrue two => exact pieces_two (Nat.lt_of_not_le one) two
  case isFalse two =>
  split
  case isTrue three => exact pieces_three (Nat.lt_of_not_le two) three (valid.imp_right And.left)
  case isFalse three =>
    have bound : c.toNat < 0x110000 := by omega
    exact pieces_four (Nat.lt_of_not_le three) bound

/-! ## Texts -/

theorem pieces_flatMap (cs : List Char) :
    pieces none (cs.flatMap String.utf8EncodeChar) = cs.map some := by
  induction cs with
  | nil => simp [pieces]
  | cons c cs ih => rw [List.flatMap_cons, pieces_char, ih, List.map_cons]

/-- The bytes of an array from one index on, after those that were read. -/
theorem toList_loop (a : ByteArray) (i : Nat) (r : List UInt8) :
    ByteArray.toList.loop a i r = r.reverse ++ a.data.toList.drop i := by
  fun_induction ByteArray.toList.loop a i r with
  | case1 i r h ih =>
    have inside : i < a.data.toList.length := h
    have byte : a.get! i = a.data.toList[i] := by
      simp only [ByteArray.get!, Array.getElem_toList]
      exact getElem!_pos a.data i h
    rw [ih, List.drop_eq_getElem_cons inside, List.reverse_cons, List.append_assoc,
      List.singleton_append, byte]
  | case2 i r h =>
    rw [List.drop_eq_nil_of_le (Nat.le_of_not_lt h), List.append_nil]

theorem bytesOf_eq (s : String) : bytesOf s = s.toList.flatMap String.utf8EncodeChar := by
  have bytes : s.toUTF8 = (s.toList.flatMap String.utf8EncodeChar).toByteArray := by
    conv => lhs; rw [← String.ofList_toList (s := s)]
    exact String.toByteArray_ofList
  rw [bytesOf, bytes, ByteArray.toList, toList_loop, List.toList_data_toByteArray]
  rfl

/-- **The bytes of a text are read as this text.** -/
theorem decode?_bytesOf (s : String) : decode? (bytesOf s) = some s := by
  have all : (s.toList.map some).mapM id = some s.toList := by
    induction s.toList with
    | nil => rfl
    | cons c cs ih => simp [ih]
  rw [decode?, bytesOf_eq, pieces_flatMap, all, Option.map_some, String.ofList_toList]

end ServerLink.Text
