import ServerLink.Disk.Trees
import ServerLink.Proofs.Disk.Confined

/-!
# Where a path leads

Whoever follows a path takes one step after the other, through links as well (`Disk.Walks`). The
steps depend on the links and entries of the tree alone, so that a path leads to one place at most
(`Walks.unique`), whatever the modes are (`Walks.congr`). Where the path is followed to its end, it
is that place (`leads_of_find`), and a path into a directory leads to the entry (`find_inside`).
-/

namespace ServerLink

open ServerLink.Path (Part)

/-! ## Paths into a directory -/

/-- The place where a path starts. -/
def Path.origin (p : Path) (directory : Place) : Place := if p.absolute then [] else directory

namespace Path

variable {directory relative name text : String}

theorem absolute_of_parts_nil (htext : text ≠ "") (hnil : (ofText text).parts = []) :
    (ofText text).absolute = true := by
  by_contra habs
  refine htext ?_
  have hcs := eq_nil_of_partsOf hnil (by simpa [ofText] using habs)
  simpa using hcs

theorem trailingSlash_inside (h : relative ≠ "") :
    (ofText (inside directory relative)).trailingSlash = (ofText relative).trailingSlash := by
  have hne : relative.toList ≠ [] := by simpa using h
  have hlast : ∀ xs : List Char,
      (xs ++ '/' :: relative.toList).getLast? = relative.toList.getLast? := by
    intro xs
    rw [List.getLast?_append_of_ne_nil _ (List.cons_ne_nil _ _), List.getLast?_cons_of_ne_nil hne]
  simp only [ofText]
  rcases toList_inside directory relative with ⟨rfl, hin⟩ | ⟨xs, -, hin⟩ | ⟨-, hin⟩
  · rw [hin]
  · rw [hin, hlast]
  · rw [hin, hlast]

/-- What the text of an entry's path says. -/
theorem ofText_inside (directory : String) (hname : Proper name) :
    (ofText (inside directory name)).absolute = (ofText directory).absolute ∧
      (ofText (inside directory name)).parts = (ofText directory).parts ++ [.name name] ∧
      (ofText (inside directory name)).trailingSlash = false := by
  have hhead : name.toList.head? ≠ some '/' := by
    simpa [ofText] using congrArg Path.absolute hname
  have hne : name ≠ "" := by
    rintro rfl
    simpa [ofText, split, Part.ofChars?] using congrArg Path.parts hname
  refine ⟨absolute_inside hhead, ?_, ?_⟩
  · rw [parts_inside, congrArg Path.parts hname]
  · rw [trailingSlash_inside hne, congrArg Path.trailingSlash hname]

end Path

/-! ## Trees -/

namespace Node

/-- Where a link leads; anything else is no link. -/
def target? : Node → Option String
  | .link target => some target
  | .file _ _ | .directory _ _ => none

/-- A tree as there are on disks: the entries of each directory have names of their own, which are
proper, and no link has an empty text. -/
inductive Sound : Node → Prop where
  | file {a : Attributes} {contents : List UInt8} : Sound (.file a contents)
  | link {target : String} (text : target ≠ "") : Sound (.link target)
  | directory {a : Attributes} {es : List (String × Node)} (names : (es.map (·.1)).Nodup)
      (proper : ∀ x ∈ es, Path.Proper x.1) (entries : ∀ x ∈ es, Sound x.2) :
      Sound (.directory a es)

theorem Sound.get? {n c : Node} {p : Place} (h : n.Sound) (hc : n.get? p = some c) : c.Sound := by
  induction p generalizing n with
  | nil =>
    cases hc
    exact h
  | cons name names ih =>
    obtain ⟨a, es, m, rfl, hm, -⟩ := directory_of_get?_cons (by rw [hc]; rfl)
    have hc' : m.get? names = some c := by simpa [Node.get?, child?, entries, hm] using hc
    cases h with
    | directory _ _ hes => exact ih (hes _ (Table.mem_of_lookup hm)) hc'

end Node

namespace Disk

/-! ## Walks -/

/-- What stands at a place as far as paths go: nothing, a link, or something else. -/
def stands (d : Disk) (place : Place) : Option (Option String) := (d.get? place).map Node.target?

/-- Somebody who follows these parts from a place, through all links, gets to another place. -/
inductive Walks (d : Disk) : Place → List Part → Place → Prop where
  | nil {dir : Place} : Walks d dir [] dir
  | here {dir q : Place} {ps : List Part} (h : Walks d dir ps q) : Walks d dir (.here :: ps) q
  | up {dir q : Place} {ps : List Part} (h : Walks d dir.dropLast ps q) :
      Walks d dir (.up :: ps) q
  | entry {dir q : Place} {ps : List Part} {n : String} (hn : d.stands (dir ++ [n]) = some none)
      (h : Walks d (dir ++ [n]) ps q) : Walks d dir (.name n :: ps) q
  | link {dir q : Place} {ps : List Part} {n target : String}
      (hn : d.stands (dir ++ [n]) = some (some target))
      (h : Walks d ((Path.ofText target).origin dir) ((Path.ofText target).parts ++ ps) q) :
      Walks d dir (.name n :: ps) q

/-- The path with this text leads to the place. -/
def Leads (d : Disk) (text : String) (q : Place) : Prop :=
  d.Walks ((Path.ofText text).origin d.directory) (Path.ofText text).parts q

variable {d d' : Disk} {dir place p q : Place} {ps : List Part} {part : Part} {links fuel : Nat}
  {slash follow : Bool} {s : LastStep} {name text target : String} {c : Node}

theorem stands_of_get? (h : d.get? place = some c) : d.stands place = some c.target? := by
  rw [stands, h]
  rfl

namespace Walks

theorem unique (h : d.Walks dir ps p) (h' : d.Walks dir ps q) : p = q := by
  induction h with
  | nil => cases h'; rfl
  | here _ ih => cases h' with | here h' => exact ih h'
  | up _ ih => cases h' with | up h' => exact ih h'
  | entry hn _ ih =>
    cases h' with
    | entry _ h' => exact ih h'
    | link hn' _ => rw [hn] at hn'; cases hn'
  | link hn _ ih =>
    cases h' with
    | entry hn' _ => rw [hn] at hn'; cases hn'
    | link hn' h' => rw [hn] at hn'; cases hn'; exact ih h'

theorem append {qs : List Part} (h : d.Walks dir ps p) (h' : d.Walks p qs q) :
    d.Walks dir (ps ++ qs) q := by
  induction h with
  | nil => exact h'
  | here _ ih => exact .here (ih h')
  | up _ ih => exact .up (ih h')
  | entry hn _ ih => exact .entry hn (ih h')
  | link hn _ ih =>
    have hrest := ih h'
    rw [List.append_assoc] at hrest
    exact .link hn hrest

/-- Where the same links and entries are, the same walks are. -/
theorem congr (h : d.Walks dir ps q) (hsame : ∀ p, d'.stands p = d.stands p) :
    d'.Walks dir ps q := by
  induction h with
  | nil => exact .nil
  | here _ ih => exact .here ih
  | up _ ih => exact .up ih
  | entry hn _ ih => exact .entry ((hsame _).trans hn) ih
  | link hn _ ih => exact .link ((hsame _).trans hn) ih

end Walks

theorem Leads.congr (h : d.Leads text q) (hdir : d'.directory = d.directory)
    (hsame : ∀ p, d'.stands p = d.stands p) : d'.Leads text q := by
  rw [Leads, hdir]
  exact Walks.congr h hsame

/-- A path into a directory leads to the entry, unless that is a link. -/
theorem Leads.inside (h : d.Leads text place) (hname : Path.Proper name)
    (hentry : d.stands (place ++ [name]) = some none) :
    d.Leads (Path.inside text name) (place ++ [name]) := by
  obtain ⟨habs, hparts, -⟩ := Path.ofText_inside text hname
  rw [Leads, Path.origin, habs, hparts]
  exact h.append (.entry hentry .nil)

/-! ## Following a path -/

/-- The last step of a path is made where the parts before it lead. -/
theorem walks_of_lastStep (h : d.lastStep links dir (ps ++ [part]) slash = .ok s) :
    s.part? = some part ∧ d.Walks dir ps s.dir := by
  generalize hall : ps ++ [part] = all at h
  have hcons : ∀ {ps : List Part} {x y : Part} {rest : List Part},
      ps ++ [part] = x :: y :: rest → ∃ ps', ps = x :: ps' ∧ ps' ++ [part] = y :: rest := by
    intro ps x y rest heq
    cases ps with
    | nil => cases heq
    | cons z ps' =>
      obtain ⟨rfl, hrest⟩ := List.cons.inj heq
      exact ⟨ps', rfl, hrest⟩
  fun_induction Disk.lastStep d links dir all slash generalizing ps with
  | case1 => simp at hall
  | case2 links dir x =>
    obtain ⟨rfl, hx⟩ := List.append_eq_singleton_iff.1 hall |>.resolve_right (by simp)
    cases hx
    rw [eq_of_search h]
    exact ⟨rfl, .nil⟩
  | case3 | case6 | case7 | case8 | case10 => cases h
  | case4 _ _ _ _ _ ih =>
    obtain ⟨ps', rfl, hrest⟩ := hcons hall
    exact (ih hrest h).imp_right .here
  | case5 _ _ _ _ _ ih =>
    obtain ⟨ps', rfl, hrest⟩ := hcons hall
    exact (ih hrest h).imp_right .up
  | case9 _ _ _ _ _ _ _ _ hchild ih =>
    obtain ⟨ps', rfl, hrest⟩ := hcons hall
    exact (ih hrest h).imp_right (.entry (stands_of_get? (get?_of_child hchild)))
  | case11 _ _ _ _ _ target hchild =>
    rename_i ih
    obtain ⟨ps', rfl, hrest⟩ := hcons hall
    simp only [dite_eq_ite] at ih
    have hall' : ((Path.ofText target).parts ++ ps') ++ [part] =
        (Path.ofText target).parts ++ (ps' ++ [part]) := List.append_assoc _ _ _
    rw [hrest] at hall'
    exact (ih hall' h).imp_right (.link (stands_of_get? (get?_of_child hchild)))

/-- A link's text, or a path's, is followed to a last step, and leads where the last step does. -/
theorem walks_of_text (htext : text ≠ "") (h : d.lastStep links ((Path.ofText text).origin dir)
    (Path.ofText text).parts slash = .ok s) : (s.part? = none → s.dir = []) ∧
      ∀ q, d.Walks s.dir s.part?.toList q →
        d.Walks ((Path.ofText text).origin dir) (Path.ofText text).parts q := by
  rcases List.eq_nil_or_concat' (Path.ofText text).parts with hnil | ⟨ps, part, hparts⟩
  · have horigin : (Path.ofText text).origin dir = [] := by
      rw [Path.origin, if_pos (Path.absolute_of_parts_nil htext hnil)]
    rw [hnil, lastStep] at h
    cases h
    rw [hnil, horigin]
    exact ⟨fun _ => rfl, fun q hq => hq⟩
  · rw [hparts] at h ⊢
    obtain ⟨hpart, hwalks⟩ := walks_of_lastStep h
    rw [hpart]
    exact ⟨by simp, fun q hq => hwalks.append hq⟩

/-- Whoever arrives through the last step arrives where it leads, or at a link that is not to be
followed. -/
theorem walks_of_arrive (hd : d.root.Sound) (htop : s.part? = none → s.dir = [])
    (h : d.arrive follow fuel s = .ok q) : d.Walks s.dir s.part?.toList q ∨
      follow = false ∧ ∃ target, d.get? q = some (.link target) := by
  induction fuel generalizing s with
  | zero => cases h
  | succ fuel ih =>
    unfold arrive at h
    split at h
    · rename_i hpart
      cases h
      rw [hpart, htop hpart]
      exact .inl .nil
    · rename_i hpart
      cases h
      rw [hpart]
      exact .inl (.here .nil)
    · rename_i hpart
      cases h
      rw [hpart]
      exact .inl (.up .nil)
    · rename_i n hpart
      rw [hpart]
      split at h
      · cases h
      · cases h
      · rename_i target hchild
        have hget := get?_of_child hchild
        split at h
        · obtain ⟨s', hs', hq⟩ : ∃ s', d.lastStepOfLink s target = .ok s' ∧
              d.arrive follow fuel s' = .ok q := by
            cases hs' : d.lastStepOfLink s target with
            | error e => rw [hs'] at h; cases h
            | ok s' => rw [hs'] at h; exact ⟨s', rfl, h⟩
          unfold lastStepOfLink at hs'
          split at hs'
          · cases hs'
          · have htext : target ≠ "" := by
              cases hd.get? hget with
              | link text => exact text
            obtain ⟨htop', hwalks⟩ := walks_of_text htext hs'
            refine (ih htop' hq).imp_left fun hrest => .link (stands_of_get? hget) ?_
            rw [List.append_nil]
            exact hwalks q hrest
        · rename_i hfollow
          cases h
          exact .inr ⟨by simp_all, target, hget⟩
      · rename_i c hlink hchild
        have hc : c.target? = none := by
          cases c with
          | link target => exact absurd rfl (hlink target)
          | _ => rfl
        have hstands := stands_of_get? (get?_of_child hchild)
        rw [hc] at hstands
        cases hcheck : checkSlash s c with
        | error e => rw [hcheck] at h; cases h
        | ok =>
          rw [hcheck] at h
          cases h
          exact .inl (.entry hstands .nil)

theorem start_of_find (h : d.find follow text = .ok q) : text ≠ "" ∧ ∃ s,
    d.lastStep maxLinks ((Path.ofText text).origin d.directory) (Path.ofText text).parts
      (Path.ofText text).trailingSlash = .ok s ∧ d.arrive follow (maxLinks + 1) s = .ok q := by
  unfold find at h
  cases hs : d.start text with
  | error e => rw [hs] at h; cases h
  | ok s =>
    rw [hs] at h
    unfold start at hs
    split at hs
    · cases hs
    · rename_i hempty
      split at hs
      · cases hs
      · exact ⟨by simpa using hempty, s, hs, h⟩

/-- **A path that is found leads there.** -/
theorem leads_of_find (hd : d.root.Sound) (h : d.find follow text = .ok q) :
    d.Leads text q ∨ follow = false ∧ ∃ target, d.get? q = some (.link target) := by
  obtain ⟨htext, s, hs, hq⟩ := start_of_find h
  obtain ⟨htop, hwalks⟩ := walks_of_text htext hs
  exact (walks_of_arrive hd htop hq).imp_left (hwalks q)

/-- The path of an entry is followed to the entry, which may be a link. -/
theorem find_inside (hl : d.Leads text place) (hname : Path.Proper name)
    (h : d.find false (Path.inside text name) = .ok q) : q = place ++ [name] := by
  obtain ⟨-, s, hs, hq⟩ := start_of_find h
  obtain ⟨habs, hparts, hslash⟩ := Path.ofText_inside text hname
  rw [Path.origin, habs, hparts, hslash] at hs
  obtain ⟨hpart, hwalks⟩ := walks_of_lastStep hs
  have hdir : s.dir = place := hwalks.unique hl
  have hbare : s.slash = false := slash_lastStep hs
  unfold arrive at hq
  rw [hpart, hdir, hbare] at hq
  simp only [Bool.or_self, Bool.false_eq_true, if_false] at hq
  split at hq
  · cases hq
  · cases hq
  · cases hq
    rfl
  · rename_i c _ _
    cases hcheck : checkSlash s c with
    | error e => rw [hcheck] at hq; cases hq
    | ok =>
      rw [hcheck] at hq
      cases hq
      rfl

end Disk

end ServerLink
