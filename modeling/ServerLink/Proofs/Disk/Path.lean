import ServerLink.Disk.Path
import Mathlib.Data.List.Infix

/-!
# What the text of a path says

The parts of a path inside a directory are the directory's and then its own (`parts_inside`).
Trimming a text takes nothing from it but parts `.` at its ends (`partsOf_trim`), and the text of
the directory above lacks one part more (`partsOf_parent?`). A name that is a part of a text is a
text of one part itself (`wellNamed_partsOf`).
-/

namespace ServerLink.Path

/-- The parts of a text given by its characters. -/
def partsOf (cs : List Char) : List Part := (split cs).filterMap Part.ofChars?

theorem parts_ofText (text : String) : (ofText text).parts = partsOf text.toList := rfl

/-- As the text of a path the name says nothing but itself. -/
def Proper (name : String) : Prop := ofText name = ⟨false, [.name name], false⟩

instance (name : String) : Decidable (Proper name) :=
  inferInstanceAs (Decidable (ofText name = ⟨false, [.name name], false⟩))

/-- All names of a path are proper. -/
def WellNamed (ps : List Part) : Prop := ∀ n, Part.name n ∈ ps → Proper n

/-! ## Parts -/

theorem split_ne_nil : ∀ cs, split cs ≠ []
  | [] => by simp [split]
  | c :: cs => by
    rw [split]
    split
    · simp
    · split <;> simp

theorem split_slash (cs : List Char) : split ('/' :: cs) = [] :: split cs := by simp [split]

theorem split_cons {c : Char} (h : c ≠ '/') (cs : List Char) :
    ∃ p ps, split cs = p :: ps ∧ split (c :: cs) = (c :: p) :: ps := by
  obtain ⟨p, ps, hp⟩ := List.exists_cons_of_ne_nil (split_ne_nil cs)
  exact ⟨p, ps, hp, by rw [split, if_neg h, hp]⟩

theorem split_append_slash (xs ys : List Char) :
    split (xs ++ '/' :: ys) = split xs ++ split ys := by
  induction xs with
  | nil => simp [split]
  | cons c xs ih =>
    rw [List.cons_append]
    by_cases h : c = '/'
    · subst h
      rw [split_slash, split_slash, ih, List.cons_append]
    · obtain ⟨p, ps, hp, hc⟩ := split_cons h xs
      rw [hc, split, if_neg h, ih, hp]
      rfl

theorem split_of_not_mem : ∀ {cs : List Char}, '/' ∉ cs → split cs = [cs]
  | [], _ => rfl
  | c :: cs, h => by
    rw [split, if_neg fun hc => h (by simp [hc]), split_of_not_mem fun hc => h (by simp [hc])]

theorem not_mem_of_mem_split {cs p : List Char} (h : p ∈ split cs) : '/' ∉ p := by
  induction cs generalizing p with
  | nil =>
    rw [split, List.mem_singleton] at h
    simp [h]
  | cons c cs ih =>
    by_cases hc : c = '/'
    · subst hc
      rw [split_slash, List.mem_cons] at h
      rcases h with rfl | h
      · simp
      · exact ih h
    · obtain ⟨q, ps, hq, hsplit⟩ := split_cons hc cs
      rw [hsplit, List.mem_cons] at h
      rw [hq] at ih
      rcases h with rfl | h
      · simpa [Ne.symm hc] using ih (List.mem_cons_self)
      · exact ih (List.mem_cons_of_mem q h)

theorem partsOf_append_slash (xs ys : List Char) :
    partsOf (xs ++ '/' :: ys) = partsOf xs ++ partsOf ys := by
  rw [partsOf, split_append_slash, List.filterMap_append]
  rfl

@[simp] theorem partsOf_nil : partsOf [] = [] := rfl

@[simp] theorem partsOf_slash (cs : List Char) : partsOf ('/' :: cs) = partsOf cs :=
  partsOf_append_slash [] cs

@[simp] theorem partsOf_dot_slash (cs : List Char) :
    partsOf ('.' :: '/' :: cs) = .here :: partsOf cs :=
  partsOf_append_slash ['.'] cs

@[simp] theorem partsOf_dot : partsOf ['.'] = [.here] := by decide

/-- A text that does not start with a slash says nothing only if it is empty. -/
theorem eq_nil_of_partsOf {cs : List Char} (h : partsOf cs = []) (hc : cs.head? ≠ some '/') :
    cs = [] := by
  cases cs with
  | nil => rfl
  | cons c cs =>
    have hne : c ≠ '/' := fun heq => hc (by simp [heq])
    obtain ⟨p, ps, _, hsplit⟩ := split_cons hne cs
    rw [partsOf, hsplit] at h
    have hnone := List.filterMap_eq_nil_iff.1 h _ List.mem_cons_self
    simp only [Part.ofChars?, if_neg (List.cons_ne_nil c p)] at hnone
    split at hnone
    · cases hnone
    · split at hnone <;> cases hnone

theorem wellNamed_partsOf (cs : List Char) : WellNamed (partsOf cs) := by
  intro n hn
  obtain ⟨c, hc, hpart⟩ := List.mem_filterMap.1 hn
  have hslash := not_mem_of_mem_split hc
  have hname : c ≠ [] ∧ n = String.ofList c := by
    unfold Part.ofChars? at hpart
    split at hpart
    · cases hpart
    · split at hpart
      · cases hpart
      · split at hpart
        · cases hpart
        · exact ⟨by assumption, by cases hpart; rfl⟩
  obtain ⟨-, rfl⟩ := hname
  have hhead : c.head? ≠ some '/' := fun h => hslash (List.mem_of_head? h)
  have hlast : c.getLast? ≠ some '/' := fun h => hslash (List.mem_of_getLast? h)
  simp [Proper, ofText, split_of_not_mem hslash, hpart, hhead, hlast]

theorem wellNamed_ofText (text : String) : WellNamed (ofText text).parts :=
  wellNamed_partsOf text.toList

/-! ## Paths inside a directory -/

/-- How the text of a path inside a directory is made up. -/
theorem toList_inside (directory relative : String) :
    directory = "" ∧ inside directory relative = relative ∨
      (∃ xs, directory.toList = xs ++ ['/'] ∧
        (inside directory relative).toList = xs ++ '/' :: relative.toList) ∨
      directory ≠ "" ∧
        (inside directory relative).toList = directory.toList ++ '/' :: relative.toList := by
  by_cases hempty : directory = ""
  · exact .inl ⟨hempty, by simp [inside, hempty]⟩
  by_cases hslash : directory.endsWith "/"
  · have hsuffix : "/".toList <:+ directory.toList := by
      rw [← String.endsWith_toSlice, String.Slice.endsWith_string_iff] at hslash
      simpa using hslash
    obtain ⟨xs, hxs⟩ := hsuffix
    refine .inr (.inl ⟨xs, hxs.symm, ?_⟩)
    simp [inside, hslash, ← hxs]
  · refine .inr (.inr ⟨hempty, ?_⟩)
    simp [inside, hslash, hempty]

theorem parts_inside (directory relative : String) :
    (ofText (inside directory relative)).parts =
      (ofText directory).parts ++ (ofText relative).parts := by
  simp only [parts_ofText]
  rcases toList_inside directory relative with ⟨rfl, h⟩ | ⟨xs, hxs, h⟩ | ⟨-, h⟩
  · rw [h]; rfl
  · rw [h, hxs, partsOf_append_slash, partsOf_append_slash]
    simp
  · rw [h, partsOf_append_slash]

theorem absolute_inside {directory relative : String} (h : relative.toList.head? ≠ some '/') :
    (ofText (inside directory relative)).absolute = (ofText directory).absolute := by
  simp only [ofText]
  rcases toList_inside directory relative with ⟨rfl, hin⟩ | ⟨xs, hxs, hin⟩ | ⟨hne, hin⟩
  · rw [hin]; simp [h]
  · rw [hin, hxs]; cases xs <;> simp
  · have hnil : directory.toList ≠ [] := by simpa using hne
    obtain ⟨c, cs, hcs⟩ := List.exists_cons_of_ne_nil hnil
    rw [hin, hcs]; simp

/-- The path of a directory itself ends with a slash when it is written as a path inside. -/
theorem trailingSlash_inside_empty {directory : String} (h : inside directory "" ≠ "") :
    (ofText (inside directory "")).trailingSlash = true := by
  simp only [ofText]
  rcases toList_inside directory "" with ⟨rfl, hin⟩ | ⟨xs, hxs, hin⟩ | ⟨-, hin⟩
  · exact absurd hin h
  · rw [hin]; simp
  · rw [hin]; simp

/-! ## Trimming -/

theorem trimStart_suffix (cs : List Char) : trimStart cs <:+ cs := by
  fun_induction trimStart cs with
  | case1 cs ih => exact ih.trans (List.suffix_cons _ _)
  | case2 cs ih => exact ih.trans ((List.suffix_cons _ _).trans (List.suffix_cons _ _))
  | case3 => exact List.nil_suffix
  | case4 => exact List.suffix_rfl

theorem head?_trimStart (cs : List Char) : (trimStart cs).head? ≠ some '/' := by
  fun_induction trimStart cs with
  | case1 cs ih => exact ih
  | case2 cs ih => exact ih
  | case3 => simp
  | case4 cs hslash =>
    intro h
    obtain ⟨rest, rfl⟩ := List.head?_eq_some_iff.1 h
    exact hslash rest rfl

theorem partsOf_trimStart (cs : List Char) :
    ∃ i, partsOf cs = List.replicate i .here ++ partsOf (trimStart cs) := by
  fun_induction trimStart cs with
  | case1 cs ih => simpa using ih
  | case2 cs ih =>
    obtain ⟨i, hi⟩ := ih
    exact ⟨i + 1, by rw [partsOf_dot_slash, hi, List.replicate_succ, List.cons_append]⟩
  | case3 => exact ⟨1, by simp⟩
  | case4 => exact ⟨0, rfl⟩

/-- A part read backwards. -/
def Part.reverse : Part → Part
  | .here => .here
  | .up => .up
  | .name n => .name (String.ofList n.toList.reverse)

theorem Part.ofChars?_reverse (cs : List Char) :
    Part.ofChars? cs.reverse = (Part.ofChars? cs).map Part.reverse := by
  by_cases hnil : cs = []
  · subst hnil; rfl
  by_cases hdot : cs = ['.']
  · subst hdot; decide
  by_cases hdots : cs = ['.', '.']
  · subst hdots; decide
  have hdot' : cs.reverse ≠ ['.'] := fun h => hdot (by simpa using congrArg List.reverse h)
  have hdots' : cs.reverse ≠ ['.', '.'] := fun h => hdots (by simpa using congrArg List.reverse h)
  simp [ofChars?, hnil, hdot, hdots, hdot', hdots', reverse]

theorem split_append_singleton {c : Char} (h : c ≠ '/') (cs : List Char) :
    ∃ ps p, split cs = ps ++ [p] ∧ split (cs ++ [c]) = ps ++ [p ++ [c]] := by
  induction cs with
  | nil => exact ⟨[], [], rfl, by simp [split, h]⟩
  | cons d cs ih =>
    obtain ⟨ps, p, hsplit, hsnoc⟩ := ih
    by_cases hd : d = '/'
    · subst hd
      exact ⟨[] :: ps, p, by rw [split_slash, hsplit]; rfl,
        by rw [List.cons_append, split_slash, hsnoc]; rfl⟩
    · cases ps with
      | nil => exact ⟨[], d :: p, by simp [split, hd, hsplit], by simp [split, hd, hsnoc]⟩
      | cons q ps => exact ⟨(d :: q) :: ps, p, by simp [split, hd, hsplit], by simp [split, hd, hsnoc]⟩

theorem split_reverse (cs : List Char) :
    split cs.reverse = ((split cs).map List.reverse).reverse := by
  induction cs with
  | nil => rfl
  | cons c cs ih =>
    rw [List.reverse_cons]
    by_cases h : c = '/'
    · subst h
      rw [split_append_slash, ih, split_slash]
      simp [split]
    · obtain ⟨p, ps, hp, hc⟩ := split_cons h cs
      obtain ⟨qs, q, hq, hsnoc⟩ := split_append_singleton h cs.reverse
      rw [hp] at ih
      rw [ih, List.map_cons, List.reverse_cons] at hq
      obtain ⟨rfl, hlast⟩ := List.append_inj' hq rfl
      obtain rfl : p.reverse = q := by simpa using hlast
      rw [hsnoc, hc]
      simp

theorem partsOf_reverse (cs : List Char) :
    partsOf cs.reverse = ((partsOf cs).map Part.reverse).reverse := by
  rw [partsOf, partsOf, split_reverse, List.filterMap_reverse, List.filterMap_map,
    List.map_filterMap]
  exact congrArg List.reverse (List.filterMap_congr fun p _ => Part.ofChars?_reverse p)

/-- A text is trimmed at its end as its reverse is at its start. -/
theorem partsOf_trimEnd (cs : List Char) :
    ∃ j, partsOf cs = partsOf (trimStart cs.reverse).reverse ++ List.replicate j .here := by
  obtain ⟨j, hj⟩ := partsOf_trimStart cs.reverse
  refine ⟨j, ?_⟩
  conv_lhs => rw [← List.reverse_reverse cs]
  rw [partsOf_reverse, hj, partsOf_reverse]
  simp [Part.reverse]

theorem partsOf_trim (cs : List Char) :
    ∃ i j, partsOf cs = List.replicate i .here ++ partsOf (trim cs) ++ List.replicate j .here := by
  obtain ⟨i, hi⟩ := partsOf_trimStart cs
  obtain ⟨j, hj⟩ := partsOf_trimEnd (trimStart cs)
  exact ⟨i, j, by rw [hi, hj, List.append_assoc]; rfl⟩

/-- What is left of a text without an end of it is at its start. -/
theorem prefix_of_suffix_reverse {cs ds : List Char} (h : ds <:+ cs.reverse) : ds.reverse <+: cs := by
  simpa using List.reverse_prefix.2 h

theorem head?_trim (cs : List Char) : (trim cs).head? ≠ some '/' := by
  obtain ⟨rest, hrest⟩ : trim cs <+: trimStart cs := prefix_of_suffix_reverse (trimStart_suffix _)
  intro h
  exact head?_trimStart cs (by rw [← hrest, List.head?_append, h]; rfl)

/-! ## The directory above -/

theorem parent?.dropPart_suffix (cs : List Char) : parent?.dropPart cs <:+ cs := by
  fun_induction parent?.dropPart cs with
  | case1 => exact List.nil_suffix
  | case2 => exact List.suffix_rfl
  | case3 c cs _ ih => exact ih.trans (List.suffix_cons _ _)

/-- What is dropped is one part, up to the next slash. -/
theorem parent?.eq_append_dropPart (cs : List Char) :
    ∃ part, cs = part ++ dropPart cs ∧ '/' ∉ part ∧
      (dropPart cs = [] ∨ ∃ rest, dropPart cs = '/' :: rest) := by
  fun_induction dropPart cs with
  | case1 => exact ⟨[], rfl, by simp, .inl rfl⟩
  | case2 cs => exact ⟨[], rfl, by simp, .inr ⟨cs, rfl⟩⟩
  | case3 c cs hc ih =>
    obtain ⟨part, hcs, hpart, hrest⟩ := ih
    exact ⟨c :: part, by rw [List.cons_append, ← hcs], by simp [Ne.symm hc, hpart], hrest⟩

/-- A trimmed text is not `.` and starts with no such part. -/
theorem trimStart_ne_dot (cs : List Char) :
    trimStart cs ≠ ['.'] ∧ ∀ rest, trimStart cs ≠ '.' :: '/' :: rest := by
  fun_induction trimStart cs with
  | case1 cs ih => exact ih
  | case2 cs ih => exact ih
  | case3 => simp
  | case4 cs _ hdots hdot => exact ⟨hdot, hdots⟩

/-- The first part of a trimmed text leads somewhere. -/
theorem partsOf_dropPart {cs : List Char} (h : trimStart cs ≠ []) :
    ∃ p, p ≠ .here ∧ partsOf (trimStart cs) = p :: partsOf (parent?.dropPart (trimStart cs)) := by
  obtain ⟨part, hcs, hpart, hrest⟩ := parent?.eq_append_dropPart (trimStart cs)
  obtain ⟨hdot, hdots⟩ := trimStart_ne_dot cs
  have hne : part ≠ [] := by
    rintro rfl
    rcases hrest with hrest | ⟨rest, hrest⟩
    · exact h (by rw [hcs, hrest]; rfl)
    · exact head?_trimStart cs (by rw [hcs, hrest]; rfl)
  have hnot : part ≠ ['.'] := by
    rintro rfl
    rcases hrest with hrest | ⟨rest, hrest⟩
    · exact hdot (by rw [hcs, hrest]; rfl)
    · exact hdots rest (by rw [hcs, hrest]; rfl)
  have hparts : partsOf (trimStart cs) = partsOf part ++ partsOf (parent?.dropPart (trimStart cs)) := by
    conv_lhs => rw [hcs]
    rcases hrest with hrest | ⟨rest, hrest⟩
    · rw [hrest]; simp
    · rw [hrest, partsOf_append_slash, partsOf_slash]
  rw [hparts, partsOf, split_of_not_mem hpart]
  by_cases hup : part = ['.', '.']
  · exact ⟨.up, by simp, by simp [hup, Part.ofChars?]⟩
  · exact ⟨.name (String.ofList part), by simp, by simp [Part.ofChars?, hne, hnot, hup]⟩

/-- The text of the directory above is empty, or it starts where the text does and lacks its last
part that leads somewhere, and parts `.` on both sides of that. -/
theorem parts_parent? {text above : String} (h : parent? text = some above) :
    above = "" ∨ (ofText above).absolute = (ofText text).absolute ∧
      ∃ i p j, p ≠ .here ∧ (ofText text).parts =
        (ofText above).parts ++ (List.replicate i .here ++ p :: List.replicate j .here) := by
  simp only [parent?] at h
  split at h
  · cases h
  next htrim =>
  split at h
  · exact .inl (Option.some.inj h).symm
  obtain ⟨j, hj⟩ := partsOf_trimEnd text.toList
  obtain ⟨p, hp, hdrop⟩ := partsOf_dropPart htrim
  obtain ⟨i, hi⟩ := partsOf_trimEnd (parent?.dropPart (trimStart text.toList.reverse)).reverse
  rw [List.reverse_reverse] at hi
  have hparts : partsOf text.toList =
      partsOf (trimStart (parent?.dropPart (trimStart text.toList.reverse))).reverse ++
        (List.replicate i .here ++ p.reverse :: List.replicate j .here) := by
    rw [hj, partsOf_reverse, hdrop, List.map_cons, List.reverse_cons, ← partsOf_reverse, hi]
    simp
  have hp' : p.reverse ≠ .here := by cases p <;> simp_all [Part.reverse]
  have hpre : (trimStart (parent?.dropPart (trimStart text.toList.reverse))).reverse <+:
      text.toList :=
    prefix_of_suffix_reverse
      ((trimStart_suffix _).trans ((parent?.dropPart_suffix _).trans (trimStart_suffix _)))
  split at h
  · next habove =>
    obtain rfl := Option.some.inj h
    rw [habove.1] at hparts
    exact .inr ⟨by simp [ofText, habove.2], i, p.reverse, j, hp', hparts⟩
  · next habove =>
    obtain rfl := Option.some.inj h
    generalize trimStart (parent?.dropPart (trimStart text.toList.reverse)) = left at *
    by_cases hleft : left = []
    · exact .inl (by simp [hleft])
    refine .inr ⟨?_, i, p.reverse, j, hp', by simpa [parts_ofText] using hparts⟩
    obtain ⟨rest, hrest⟩ := hpre
    simp only [ofText, String.toList_ofList]
    rw [← hrest, List.head?_append_of_ne_nil _ (by simpa using hleft)]

end ServerLink.Path
