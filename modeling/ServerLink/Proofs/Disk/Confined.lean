import ServerLink.Disk.Basic
import ServerLink.Proofs.Disk.Path
import ServerLink.Proofs.Disk.Tree

/-!
# Trees whose links stay inside

In a confined tree every link is relative and leads up no further than to the top of the tree
(`Node.Confined`). Wherever such a tree stands on a disk, a path that does not lead up is followed
as it is on a disk with nothing but the tree (`Holds.lastStep`, `Holds.arrive`): the walk never
comes to the place above.
-/

namespace ServerLink

open ServerLink.Path (Part)

/-- A path leads up by no more than `depth` directories, and only down after a name: where a name
leads is not known, as it may be a link's. -/
def Path.Stays : (depth : Nat) → List Part → Prop
  | _, [] => True
  | depth, .here :: ps => Stays depth ps
  | 0, .up :: _ => False
  | depth + 1, .up :: ps => Stays depth ps
  | _, .name _ :: ps => .up ∉ ps

instance Path.decidableStays : (depth : Nat) → (ps : List Part) → Decidable (Path.Stays depth ps)
  | _, [] => isTrue (by simp [Path.Stays])
  | depth, .here :: ps => decidableStays depth ps
  | 0, .up :: _ => isFalse (by simp [Path.Stays])
  | depth + 1, .up :: ps => decidableStays depth ps
  | _, .name _ :: ps => inferInstanceAs (Decidable (.up ∉ ps))

/-- What stands `depth` directories below the top of a tree leads nowhere out of the tree. -/
inductive Node.Confined : (depth : Nat) → Node → Prop where
  | file {depth : Nat} {a : Attributes} {contents : List UInt8} : Confined depth (.file a contents)
  | directory {depth : Nat} {a : Attributes} {es : List (String × Node)}
      (names : ∀ e ∈ es, Path.Proper e.1) (entries : ∀ e ∈ es, Confined (depth + 1) e.2) :
      Confined depth (.directory a es)
  | link {depth : Nat} {target : String} (relative : (Path.ofText target).absolute = false)
      (leads : (Path.ofText target).parts ≠ [])
      (stays : Path.Stays depth (Path.ofText target).parts) : Confined (depth + 1) (.link target)

namespace Path

theorem stays_of_not_up {depth : Nat} {ps : List Part} (h : .up ∉ ps) : Stays depth ps := by
  induction ps with
  | nil => simp [Stays]
  | cons p ps ih =>
    rw [List.mem_cons, not_or] at h
    cases p with
    | here => simpa [Stays] using ih h.2
    | up => exact absurd rfl h.1
    | name n => exact h.2

/-- Going down in the end does not lead out. -/
theorem Stays.append {depth : Nat} {ps qs : List Part} (h : Stays depth ps) (hq : .up ∉ qs) :
    Stays depth (ps ++ qs) := by
  induction ps generalizing depth with
  | nil => exact stays_of_not_up hq
  | cons p ps ih =>
    cases p with
    | here => exact ih h
    | up =>
      cases depth with
      | zero => exact h.elim
      | succ depth => exact ih h
    | name n =>
      have hps : Part.up ∉ ps := h
      simpa [Stays] using ⟨hps, hq⟩

theorem WellNamed.append {ps qs : List Part} (h : WellNamed ps) (hq : WellNamed qs) :
    WellNamed (ps ++ qs) := fun n hn => (List.mem_append.1 hn).elim (h n) (hq n)

theorem WellNamed.tail {p : Part} {ps : List Part} (h : WellNamed (p :: ps)) : WellNamed ps :=
  fun n hn => h n (List.mem_cons_of_mem p hn)

end Path

namespace Node

variable {depth : Nat} {n c : Node} {name : String} {place : Place}

theorem Confined.entry (h : n.Confined depth) {e : String × Node} (he : e ∈ n.entries) :
    Path.Proper e.1 ∧ e.2.Confined (depth + 1) := by
  cases h with
  | file => cases he
  | link => cases he
  | directory names entries => exact ⟨names e he, entries e he⟩

theorem Confined.child (h : n.Confined depth) (hc : n.child? name = some c) :
    c.Confined (depth + 1) := (h.entry (Table.mem_of_lookup hc)).2

theorem Confined.get? (h : n.Confined depth) (hc : n.get? place = some c) :
    c.Confined (depth + place.length) := by
  induction place generalizing n depth with
  | nil => obtain rfl := Option.some.inj hc; exact h
  | cons name names ih =>
    obtain ⟨d, hd, hc⟩ := Option.bind_eq_some_iff.1 hc
    have := ih (h.child hd) hc
    rwa [List.length_cons, ← Nat.add_assoc, Nat.add_right_comm]

/-- A tree stays confined if what is put into it is, under a proper name if the name is new. -/
theorem Confined.alter (h : n.Confined depth) {change : Option Node → Option Node}
    (hnew : ∀ c, change (n.get? place) = some c → c.Confined (depth + place.length))
    (hname : n.get? place = none → ∀ c, change none = some c →
      ∀ dir name, place = dir ++ [name] → Path.Proper name) :
    (n.alter change place).Confined depth := by
  induction place generalizing n depth with
  | nil =>
    rw [Node.alter]
    cases hchange : change (some n) with
    | none => exact h
    | some c => exact hnew c hchange
  | cons name names ih =>
    cases n with
    | file _ _ | link _ => simpa [Node.alter] using h
    | directory a es =>
      have hnames : ∀ e ∈ es, Path.Proper e.1 := fun e he => (h.entry he).1
      have hentries : ∀ e ∈ es, e.2.Confined (depth + 1) := fun e he => (h.entry he).2
      cases names with
      | nil =>
        rw [Node.alter]
        have hget : (Node.directory a es).get? [name] = es.lookup name := by
          simp [Node.get?, child?, Node.entries]
        rw [hget] at hnew hname
        refine .directory (fun e he => ?_) fun e he => ?_
        · rcases mem_setEntry he with he | ⟨hkey, hchange⟩
          · exact hnames e he
          · cases hlookup : es.lookup name with
            | none => exact hkey ▸ hname hlookup e.2 (hlookup ▸ hchange) [] name rfl
            | some c =>
              exact hkey ▸ hnames (name, c) (Table.mem_of_lookup hlookup)
        · rcases mem_setEntry he with he | ⟨-, hchange⟩
          · exact hentries e he
          · exact hnew e.2 hchange
      | cons next names =>
        cases hlookup : es.lookup name with
        | none => simpa [Node.alter, hlookup] using Confined.directory hnames hentries
        | some c =>
          have hmem := Table.mem_of_lookup hlookup
          have hget : (Node.directory a es).get? (name :: next :: names) = c.get? (next :: names) := by
            rw [Node.get?]; simp [child?, Node.entries, hlookup]
          rw [hget] at hnew hname
          rw [alter_cons_cons hlookup]
          have hc := ih (hentries _ hmem)
            (fun c hc => by simpa [Nat.add_assoc, Nat.add_comm] using hnew c hc)
            fun hnone d hd dir last heq =>
              hname hnone d hd (name :: dir) last (by rw [heq]; rfl)
          refine .directory (fun e he => ?_) fun e he => ?_
          · rcases mem_setEntry he with he | ⟨hkey, -⟩
            · exact hnames e he
            · exact hkey ▸ hnames _ hmem
          · rcases mem_setEntry he with he | ⟨-, hchange⟩
            · exact hentries e he
            · exact Option.some.inj hchange ▸ hc

theorem Confined.setAttributes (h : n.Confined depth) (a : Attributes) :
    (n.setAttributes a).Confined depth := by
  cases h with
  | file => exact .file
  | directory names entries => exact .directory names entries
  | link relative leads stays => exact .link relative leads stays

end Node

namespace Disk

/-- A last step as it is taken below a place. -/
def LastStep.below (place : Place) (s : LastStep) : LastStep := { s with dir := place ++ s.dir }

@[simp] theorem LastStep.below_dir (place : Place) (s : LastStep) :
    (s.below place).dir = place ++ s.dir := rfl

@[simp] theorem LastStep.below_part? (place : Place) (s : LastStep) :
    (s.below place).part? = s.part? := rfl

@[simp] theorem LastStep.below_slash (place : Place) (s : LastStep) :
    (s.below place).slash = s.slash := rfl

@[simp] theorem LastStep.below_links (place : Place) (s : LastStep) :
    (s.below place).links = s.links := rfl

@[simp] theorem checkSlash_below (place : Place) (s : LastStep) (n : Node) :
    checkSlash (s.below place) n = checkSlash s n := rfl

/-- A disk has the tree of another at a place, and one process sees them both. -/
structure Holds (d : Disk) (place : Place) (inner : Disk) : Prop where
  get? : ∀ q, d.get? (place ++ q) = inner.get? q
  process : d.process = inner.process

namespace Holds

variable {d inner : Disk} {place : Place} (h : d.Holds place inner)

include h

theorem node (q : Place) : d.node (place ++ q) = inner.node q := by
  simp only [Disk.node, h.get?]

theorem check (n : Node) (access : Access) : d.check n access = inner.check n access := by
  simp only [Disk.check, h.process]

theorem child (q : Place) (name : String) : d.child (place ++ q) name = inner.child q name := by
  simp only [Disk.child, h.node]

theorem checkEntries (q : Place) : d.checkEntries (place ++ q) = inner.checkEntries q := by
  simp only [Disk.checkEntries, h.node, h.check]

end Holds

theorem get?_of_child {d : Disk} {dir : Place} {name : String} {c : Node}
    (hc : d.child dir name = .ok (some c)) : d.get? (dir ++ [name]) = some c := by
  unfold child node at hc
  split at hc
  · cases hc
  · cases hdir : d.get? dir with
    | none => simp [hdir, Except.map] at hc
    | some n =>
      rw [hdir] at hc
      rw [Disk.get?, Node.get?_snoc]
      rw [Disk.get?] at hdir
      simpa [hdir, Except.map] using hc

/-- A link that is found in a directory of a confined tree stays in the tree. -/
theorem link_of_child {d : Disk} (hd : d.root.Confined 0) {dir : Place} {name target : String}
    (hc : d.child dir name = .ok (some (.link target))) :
    (Path.ofText target).absolute = false ∧ (Path.ofText target).parts ≠ [] ∧
      Path.Stays dir.length (Path.ofText target).parts := by
  have hlink := hd.get? (get?_of_child hc)
  rw [List.length_append, List.length_singleton, ← Nat.add_assoc, Nat.zero_add] at hlink
  cases hlink with
  | link relative leads stays => exact ⟨relative, leads, stays⟩

/-- A step that stays below the top of its tree. -/
structure LastStep.Inside (s : LastStep) : Prop where
  part : s.part? ≠ none
  stays : s.part? = some .up → s.dir ≠ []
  named : ∀ n, s.part? = some (.name n) → Path.Proper n

section

variable {d inner : Disk} {place : Place} {links : Nat} {dir : Place} {parts : List Part}
  {slash : Bool}

/-- What comes after a look at a directory is what it would be without the look. -/
theorem eq_of_search {α : Type} {a b : α}
    (h : (do inner.check (← inner.node dir) .search; return a) = .ok b) : b = a := by
  cases hn : inner.node dir with
  | error e => rw [hn] at h; cases h
  | ok n =>
    simp only [hn, bind, Except.bind] at h
    split at h
    · cases h
    · cases h; rfl

/-- A walk is the same wherever the tree stands. It is followed by the recursion of the walk in the
tree alone; what is left of a path at any time stays below the top of the tree. -/
theorem Holds.lastStep (h : d.Holds place inner) (hin : inner.root.Confined 0)
    (hne : parts ≠ []) (hs : Path.Stays dir.length parts) :
    d.lastStep links (place ++ dir) parts slash =
      (inner.lastStep links dir parts slash).map (.below place) := by
  fun_induction Disk.lastStep inner links dir parts slash with
  | case1 => exact absurd rfl hne
  | case2 links dir p =>
    rw [Disk.lastStep, h.node]
    cases inner.node dir with
    | error e => rfl
    | ok n =>
      simp only [bind, Except.bind, h.check]
      cases inner.check n .search <;> rfl
  | case3 links dir p q ps e hcheck =>
    rw [Disk.lastStep.eq_def, h.node]
    simp only [h.check, hcheck]
    rfl
  | case4 links dir q ps hcheck ih =>
    rw [Disk.lastStep, h.node]
    simp only [h.check, hcheck]
    exact ih (by simp) hs
  | case5 links dir q ps hcheck ih =>
    rw [Disk.lastStep, h.node]
    simp only [h.check, hcheck]
    cases dir using List.reverseRecOn with
    | nil => exact hs.elim
    | append_singleton dir name =>
      rw [List.length_append, List.length_singleton] at hs
      rw [← List.append_assoc, List.dropLast_concat]
      rw [List.dropLast_concat] at ih ⊢
      exact ih (by simp) hs
  | case6 links dir q ps hcheck n e hchild =>
    rw [Disk.lastStep, h.node]
    simp only [h.check, hcheck, h.child, hchild]
    rfl
  | case7 links dir q ps hcheck n hchild =>
    rw [Disk.lastStep, h.node]
    simp only [h.check, hcheck, h.child, hchild]
    rfl
  | case8 links dir q ps hcheck n a contents hchild =>
    rw [Disk.lastStep, h.node]
    simp only [h.check, hcheck, h.child, hchild]
    rfl
  | case9 links dir q ps hcheck n a es hchild ih =>
    rw [Disk.lastStep, h.node]
    simp only [h.check, hcheck, h.child, hchild]
    rw [List.append_assoc]
    exact ih (by simp) (Path.stays_of_not_up hs)
  | case10 dir q ps hcheck n target hchild =>
    rw [Disk.lastStep, h.node]
    simp only [h.check, hcheck, h.child, hchild]
    rfl
  | case11 dir q ps hcheck n target hchild links t ih =>
    obtain ⟨habs, -, hstays⟩ := link_of_child hin hchild
    rw [Disk.lastStep, h.node]
    simp only [h.check, hcheck, h.child, hchild, habs, Bool.false_eq_true, if_false]
    simp only [t, habs, Bool.false_eq_true, if_false, dif_neg, not_false_eq_true] at ih ⊢
    exact ih (by simp) (hstays.append hs)

/-- The last step of a walk that does not lead up from the top stays below it. -/
theorem lastStep_inside (hin : inner.root.Confined 0) (hne : parts ≠ [])
    (hs : Path.Stays dir.length parts) (hw : Path.WellNamed parts) {s : LastStep}
    (hok : inner.lastStep links dir parts slash = .ok s) : s.Inside := by
  fun_induction Disk.lastStep inner links dir parts slash with
  | case1 => exact absurd rfl hne
  | case2 links dir p =>
    obtain rfl := eq_of_search hok
    refine ⟨by simp, ?_, fun n hp => hw n (by simp_all)⟩
    rintro hp rfl
    cases Option.some.inj hp
    exact hs.elim
  | case3 => cases hok
  | case4 links dir q ps hcheck ih => exact ih (by simp) hs hw.tail hok
  | case5 links dir q ps hcheck ih =>
    cases dir using List.reverseRecOn with
    | nil => exact hs.elim
    | append_singleton dir name =>
      rw [List.length_append, List.length_singleton] at hs
      rw [List.dropLast_concat] at ih hok
      exact ih (by simp) hs hw.tail hok
  | case6 => cases hok
  | case7 => cases hok
  | case8 => cases hok
  | case9 links dir q ps hcheck n a es hchild ih =>
    exact ih (by simp) (Path.stays_of_not_up hs) hw.tail hok
  | case10 => cases hok
  | case11 dir q ps hcheck n target hchild links t ih =>
    obtain ⟨habs, -, hstays⟩ := link_of_child hin hchild
    simp only [t, habs, Bool.false_eq_true, if_false, dif_neg, not_false_eq_true] at ih hok
    exact ih (by simp) (hstays.append hs) ((Path.wellNamed_ofText target).append hw.tail) hok

/-- The slash behind a path is the slash behind its last step. -/
theorem slash_lastStep {s : LastStep} (hok : d.lastStep links dir parts slash = .ok s) :
    s.slash = slash := by
  fun_induction Disk.lastStep d links dir parts slash with
  | case1 => cases hok; rfl
  | case2 links dir p => rw [eq_of_search hok]
  | case3 | case6 | case7 | case8 | case10 => cases hok
  | case4 _ _ _ _ _ ih | case5 _ _ _ _ _ ih => exact ih hok
  | case9 _ _ _ _ _ _ _ _ _ ih => exact ih hok
  | case11 _ _ _ _ _ _ _ _ _ ih => simp only [dite_eq_ite] at ih; exact ih hok

variable {s : LastStep} {name target : String} {follow : Bool} {fuel : Nat}

theorem Holds.lastStepOfLink (h : d.Holds place inner) (hin : inner.root.Confined 0)
    (hchild : inner.child s.dir name = .ok (some (.link target))) :
    d.lastStepOfLink (s.below place) target = (inner.lastStepOfLink s target).map (.below place) := by
  obtain ⟨habs, hne, hstays⟩ := link_of_child hin hchild
  unfold Disk.lastStepOfLink
  simp only [LastStep.below_dir, LastStep.below_links, LastStep.below_slash, habs,
    Bool.false_eq_true, if_false]
  cases s.links with
  | zero => rfl
  | succ links => exact h.lastStep hin hne hstays

theorem lastStepOfLink_inside (hin : inner.root.Confined 0)
    (hchild : inner.child s.dir name = .ok (some (.link target))) {next : LastStep}
    (hok : inner.lastStepOfLink s target = .ok next) : next.Inside := by
  obtain ⟨habs, hne, hstays⟩ := link_of_child hin hchild
  unfold Disk.lastStepOfLink at hok
  simp only [habs, Bool.false_eq_true, if_false] at hok
  split at hok
  · cases hok
  · exact lastStep_inside hin hne hstays (Path.wellNamed_ofText target) hok

/-- A last step leads to the same place wherever the tree stands. -/
theorem Holds.arrive (h : d.Holds place inner) (hin : inner.root.Confined 0) (hs : s.Inside) :
    d.arrive follow fuel (s.below place) = (inner.arrive follow fuel s).map (place ++ ·) := by
  induction fuel generalizing s with
  | zero => rfl
  | succ fuel ih =>
    unfold Disk.arrive
    simp only [LastStep.below_part?, LastStep.below_dir, LastStep.below_slash]
    match hp : s.part? with
    | none => exact absurd hp hs.part
    | some .here => rfl
    | some .up =>
      simp only [Except.map]
      rw [List.dropLast_append_of_ne_nil (hs.stays hp)]
    | some (.name name) =>
      simp only [h.child]
      match hchild : inner.child s.dir name with
      | .error e => rfl
      | .ok none => rfl
      | .ok (some (.file a contents)) =>
        simp only [checkSlash_below]
        cases checkSlash s (.file a contents) <;> simp [Except.map]
      | .ok (some (.directory a es)) =>
        simp only [checkSlash_below]
        cases checkSlash s (.directory a es) <;> simp [Except.map]
      | .ok (some (.link target)) =>
        by_cases hfollow : (follow || s.slash) = true
        · simp only [hfollow, if_true, h.lastStepOfLink hin hchild]
          cases hnext : inner.lastStepOfLink s target with
          | error e => rfl
          | ok next => exact ih (lastStepOfLink_inside hin hchild hnext)
        · simp only [hfollow]
          simp [Except.map]

end

end Disk

end ServerLink
