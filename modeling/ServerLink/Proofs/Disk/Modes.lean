import Mathlib
import ServerLink.Proofs.Disk.Descent

/-!
# Setting the modes of a tree

To set the modes of a tree is to look up the path of each entry again and again, on a disk whose
modes change meanwhile, and with links that may lead anywhere. Each path still leads to the entry
that it was made for (`Reaches`, `Lists.head`, `Lists.tail`), so nothing but the tree is touched
(`Touched`), and all of it if nothing fails (`modes_are_set_in_the_tree_alone`). The mode that an
entry gets is the one that the process is granted, which may be less than it asked for
(`Process.granted_mode_eq_iff`).
-/

namespace ServerLink

/-! ## The mode that is granted -/

namespace Disk

theorem withoutBits_groupBit_eq_self {mode : Nat} :
    withoutBits mode groupBit = mode ↔ ¬ hasBits mode groupBit := by
  have hbit : mode &&& groupBit = (mode.testBit 10).toNat * 2 ^ 10 := Nat.and_two_pow mode 10
  have hle : mode &&& groupBit ≤ mode := Nat.and_le_left
  have hvalue : groupBit = 2 ^ 10 := rfl
  rw [withoutBits, hasBits, decide_eq_true_eq]
  cases hset : mode.testBit 10 with
  | true => simp only [hset, Bool.toNat_true] at hbit; omega
  | false => simp only [hset, Bool.toNat_false] at hbit; omega

end Disk

/-- The mode itself is granted if it has no more than twelve bits and the group bit, if it is among
them, is not withheld. -/
theorem Process.granted_mode_eq_iff (p : Process) (a : Attributes) (mode : Nat) :
    (p.granted a mode).mode = mode ↔
      mode < 0o10000 ∧ (p.keepsGroupBit a.gid ∨ ¬ Disk.hasBits mode Disk.groupBit) := by
  unfold granted
  by_cases hsmall : mode < 0o10000
  · rw [Nat.mod_eq_of_lt hsmall]
    cases p.keepsGroupBit a.gid with
    | true => simp [hsmall]
    | false => simpa [hsmall] using Disk.withoutBits_groupBit_eq_self
  · have hmod : mode % 0o10000 < 0o10000 := Nat.mod_lt _ (by decide)
    have hless : Disk.withoutBits (mode % 0o10000) Disk.groupBit ≤ mode % 0o10000 := Nat.sub_le _ _
    simp only [hsmall, false_and, iff_false]
    split <;> omega

/-! ## What a process sees of an entry -/

/-- An entry by itself. Of what a directory holds only the names count. -/
inductive Look where
  | file (attributes : Attributes) (contents : List UInt8)
  | directory (attributes : Attributes) (names : List String)
  | link (target : String)
deriving DecidableEq

namespace Look

/-- The entry with its mode set by a process. A link has none. -/
def chmod (p : Process) (mode : Nat) : Look → Look
  | .file a contents => .file (p.granted a mode) contents
  | .directory a names => .directory (p.granted a mode) names
  | .link target => .link target

def target? : Look → Option String
  | .link target => some target
  | .file _ _ | .directory _ _ => none

variable {p : Process} {mode : Nat}

/-- To set a mode twice is to set it once. -/
@[simp] theorem chmod_chmod (x : Look) : (x.chmod p mode).chmod p mode = x.chmod p mode := by
  cases x <;> rfl

@[simp] theorem target?_chmod (x : Look) : (x.chmod p mode).target? = x.target? := by
  cases x <;> rfl

end Look

namespace Node

def look : Node → Look
  | .file a contents => .file a contents
  | .directory a es => .directory a (es.map (·.1))
  | .link target => .link target

variable {n m c : Node} {a g : Attributes} {es : List (String × Node)} {name : String}
  {names p : Place} {process : Process} {mode : Nat}

@[simp] theorem target?_look (n : Node) : n.look.target? = n.target? := by cases n <;> rfl

theorem look_setAttributes (h : n.attributes? = some a) :
    (n.setAttributes (process.granted a mode)).look = n.look.chmod process mode := by
  cases n with
  | link target => cases h
  | _ => cases h; rfl

/-- Below an entry nothing changes with its attributes. -/
theorem get?_setAttributes (n : Node) (g : Attributes) (hp : p ≠ []) :
    (n.setAttributes g).get? p = n.get? p := by
  obtain ⟨name, names, rfl⟩ := List.exists_cons_of_ne_nil hp
  cases n <;> rfl

theorem keys_setEntry (h : (es.lookup name).isSome) :
    (setEntry es name (some n)).map (·.1) = es.map (·.1) := by
  rw [setEntry_some_of_lookup h, List.map_map]
  refine List.map_congr_left fun e _ => ?_
  simp only [Function.comp_apply]
  split <;> rfl

/-- What is put somewhere in an entry of a directory changes that entry alone. -/
theorem put_cons (h : es.lookup name = some c) :
    (Node.directory a es).alter (fun _ => some m) (name :: names) =
      .directory a (setEntry es name (some (c.alter (fun _ => some m) names))) := by
  cases names with
  | nil => simp [alter]
  | cons next names => exact alter_cons_cons h

/-- On the way to where something is put, directories stay what they are. -/
theorem look_put (h : (n.get? p).isSome) (hp : p ≠ []) :
    (n.alter (fun _ => some m) p).look = n.look := by
  obtain ⟨name, names, rfl⟩ := List.exists_cons_of_ne_nil hp
  obtain ⟨a, es, c, rfl, hc, -⟩ := directory_of_get?_cons h
  rw [put_cons hc, look, look, keys_setEntry (by rw [hc]; rfl)]

theorem Sound.put (hn : n.Sound) (h : (n.get? p).isSome) (hm : m.Sound) :
    (n.alter (fun _ => some m) p).Sound := by
  induction p generalizing n with
  | nil => exact hm
  | cons name names ih =>
    obtain ⟨a, es, c, rfl, hc, hrest⟩ := directory_of_get?_cons h
    have hmem := Table.mem_of_lookup hc
    cases hn with
    | directory hnames hproper hes =>
      rw [put_cons hc]
      refine .directory ?_ (fun x hx => ?_) fun x hx => ?_
      · rw [keys_setEntry (by rw [hc]; rfl)]
        exact hnames
      · rcases mem_setEntry hx with hx | ⟨hname, -⟩
        · exact hproper x hx
        · exact hname ▸ hproper _ hmem
      · rcases mem_setEntry hx with hx | ⟨-, hx⟩
        · exact hes x hx
        · exact Option.some.inj hx ▸ ih (hes _ hmem) hrest

theorem Sound.setAttributes (hn : n.Sound) (g : Attributes) : (n.setAttributes g).Sound := by
  cases hn with
  | file => exact .file
  | link text => exact .link text
  | directory names proper entries => exact .directory names proper entries

end Node

namespace Disk

/-- What stands at a place, by itself. -/
def look? (d : Disk) (place : Place) : Option Look := (d.get? place).map Node.look

/-- From one disk to the next the mode has been set of entries at a place and below it, maybe not of
all of them, and nothing else has changed. -/
structure Touched (mode : Nat) (place : Place) (d d' : Disk) : Prop where
  process : d'.process = d.process
  directory : d'.directory = d.directory
  look : ∀ q, d'.look? q = d.look? q ∨
    place <+: q ∧ d'.look? q = (d.look? q).map (Look.chmod d.process mode)
  outside : ∀ q, ¬ place <+: q → ¬ q <+: place → d'.get? q = d.get? q
  sound : d.root.Sound → d'.root.Sound

variable {mode : Nat} {d d' d'' : Disk} {place p q : Place} {path name : String} {c : Node}
  {a : Attributes} {es : List (String × Node)} {r : After Unit}

theorem stands_eq (d : Disk) (q : Place) : d.stands q = (d.look? q).map Look.target? := by
  rw [stands, look?, Option.map_map]
  exact congrArg (Option.map · _) (funext fun n => n.target?_look.symm)

theorem look?_of_get? (h : d.get? q = some c) : d.look? q = some c.look := by
  rw [look?, h]
  rfl

/-- Below what is no directory nothing stands. -/
theorem look?_below (h : d.get? place = some c) (hc : c.entries = []) {r : Place} (hr : r ≠ []) :
    d.look? (place ++ r) = none := by
  obtain ⟨name, names, rfl⟩ := List.exists_cons_of_ne_nil hr
  have hroot : d.root.get? place = some c := h
  rw [look?, Disk.get?, Node.get?_append, hroot]
  simp [Node.get?, Node.child?, hc]

namespace Touched

theorem refl (mode : Nat) (place : Place) (d : Disk) : Touched mode place d d :=
  ⟨rfl, rfl, fun _ => .inl rfl, fun _ _ _ => rfl, id⟩

/-- An entry whose mode has been set, then or now, has it set. -/
theorem settled (h : Touched mode place d' d'') (hprocess : d'.process = d.process)
    (hq : d'.look? q = (d.look? q).map (Look.chmod d.process mode)) :
    d''.look? q = (d.look? q).map (Look.chmod d.process mode) := by
  rcases h.look q with hsame | ⟨-, hset⟩
  · rw [hsame, hq]
  · rw [hset, hq, hprocess, Option.map_map]
    exact congrArg (Option.map · _) (funext fun x => x.chmod_chmod)

theorem trans (h : Touched mode place d d') (h' : Touched mode place d' d'') :
    Touched mode place d d'' where
  process := h'.process.trans h.process
  directory := h'.directory.trans h.directory
  look q := by
    rcases h.look q with hsame | ⟨hq, hset⟩
    · rw [← hsame, ← h.process]
      exact h'.look q
    · exact .inr ⟨hq, h'.settled h.process hset⟩
  outside q hp hq := (h'.outside q hp hq).trans (h.outside q hp hq)
  sound hd := h'.sound (h.sound hd)

/-- What is touched in an entry is touched in its directory. -/
theorem above (h : Touched mode (place ++ [name]) d d') : Touched mode place d d' where
  process := h.process
  directory := h.directory
  look q := (h.look q).imp_right (And.imp_left (List.prefix_append place [name]).trans)
  outside q hp hq := by
    refine h.outside q (fun hpre => hp ((List.prefix_append place [name]).trans hpre))
      fun hpre => ?_
    rcases List.prefix_concat_iff.1 hpre with rfl | hpre
    · exact hp (List.prefix_append place [name])
    · exact hq hpre
  sound := h.sound

theorem look_of_not_below (h : Touched mode place d d') (hq : ¬ place <+: q) :
    d'.look? q = d.look? q :=
  (h.look q).resolve_right fun hset => hq hset.1

theorem look_of_none (h : Touched mode place d d') (hq : d.look? q = none) :
    d'.look? q = none := by
  rcases h.look q with hsame | ⟨-, hset⟩
  · rw [hsame, hq]
  · rw [hset, hq]
    rfl

/-- Links stay where they are, and so does what is none. -/
theorem stands (h : Touched mode place d d') (q : Place) : d'.stands q = d.stands q := by
  rw [stands_eq, stands_eq]
  rcases h.look q with hsame | ⟨-, hset⟩
  · rw [hsame]
  · rw [hset, Option.map_map]
    exact congrArg (Option.map · _) (funext fun x => x.target?_chmod)

end Touched

/-! ## One entry -/

section
variable (hd : d.get? place = some c)
include hd

/-- New attributes of an entry change that entry alone. -/
theorem look?_put (g : Attributes) (q : Place) : (d.put place (c.setAttributes g)).look? q =
    if q = place then some (c.setAttributes g).look else d.look? q := by
  have hroot : d.root.get? place = some c := hd
  have hsome : (d.root.get? place).isSome := by rw [hroot]; rfl
  by_cases hbelow : place <+: q
  · obtain ⟨r, rfl⟩ := hbelow
    have hput : (d.put place (c.setAttributes g)).get? (place ++ r) = (c.setAttributes g).get? r :=
      Node.get?_put hsome r
    by_cases hr : r = []
    · subst hr
      rw [look?, hput, List.append_nil, if_pos rfl]
      rfl
    · have hne : place ++ r ≠ place := by simpa using hr
      rw [look?, hput, if_neg hne, Node.get?_setAttributes c g hr, look?, Disk.get?,
        Node.get?_append, hroot]
      rfl
  · have hne : q ≠ place := by
      rintro rfl
      exact hbelow List.prefix_rfl
    rw [if_neg hne]
    by_cases habove : q <+: place
    · obtain ⟨r, rfl⟩ := habove
      have hr : r ≠ [] := by
        rintro rfl
        exact hne (List.append_nil q).symm
      have hput : (d.put (q ++ r) (c.setAttributes g)).get? q =
          (d.get? q).map (·.alter (fun _ => some (c.setAttributes g)) r) :=
        Node.get?_alter_above d.root _ hr
      rw [Node.get?_append] at hsome
      rw [look?, hput, look?]
      cases hq : d.get? q with
      | none => rfl
      | some n =>
        have hn : d.root.get? q = some n := hq
        rw [hn] at hsome
        exact congrArg some (Node.look_put hsome hr)
    · have hsame : (d.put place (c.setAttributes g)).get? q = d.get? q :=
        Node.get?_alter_outside d.root _ hbelow habove
      rw [look?, hsame, look?]

theorem get?_put_self {n : Node} : (d.put place n).get? place = some n := by
  have hroot : d.root.get? place = some c := hd
  have hput : (d.root.alter (fun _ => some n) place).get? (place ++ []) = n.get? [] :=
    Node.get?_put (by rw [hroot]; rfl) []
  rw [List.append_nil] at hput
  exact hput

/-- The mode of one entry is set. -/
theorem touched_put (ha : c.attributes? = some a) :
    Touched mode place d (d.put place (c.setAttributes (d.process.granted a mode))) where
  process := rfl
  directory := rfl
  look q := by
    rw [look?_put hd]
    split
    · rename_i hq
      rw [hq, look?_of_get? hd, Node.look_setAttributes ha]
      exact .inr ⟨List.prefix_rfl, rfl⟩
    · exact .inl rfl
  outside q := Node.get?_alter_outside d.root _
  sound hroot := by
    have hget : d.root.get? place = some c := hd
    exact hroot.put (by rw [hget]; rfl) ((hroot.get? hget).setAttributes _)

theorem look?_put_self (ha : c.attributes? = some a) :
    (d.put place (c.setAttributes (d.process.granted a mode))).look? place =
      (d.look? place).map (Look.chmod d.process mode) := by
  rw [look?_put hd, if_pos rfl, look?_of_get? hd, Node.look_setAttributes ha]
  rfl

end

/-! ## Paths of entries -/

/-- The path is one of the entry that stands at the place. -/
structure Reaches (d : Disk) (path : String) (place : Place) (c : Node) : Prop where
  sound : d.root.Sound
  there : d.get? place = some c
  leads : c.target? = none → d.Leads path place
  found : ∀ q, d.find false path = .ok q → q = place

/-- The path is one of a directory in which these entries stand. -/
structure Lists (d : Disk) (path : String) (place : Place) (es : List (String × Node)) : Prop where
  sound : d.root.Sound
  leads : d.Leads path place
  there : ∀ x ∈ es, d.get? (place ++ [x.1]) = some x.2
  names : (es.map (·.1)).Nodup
  proper : ∀ x ∈ es, Path.Proper x.1

theorem Lists.of_directory (hd : d.root.Sound) (hl : d.Leads path place)
    (hget : d.get? place = some (.directory a es)) : Lists d path place es := by
  cases hd.get? hget with
  | directory names proper _ =>
    refine ⟨hd, hl, fun x hx => ?_, names, proper⟩
    have hroot : d.root.get? place = some (.directory a es) := hget
    rw [Disk.get?, Node.get?_snoc, hroot]
    exact Table.lookup_of_mem names hx

/-- The first entry has a path of its own, -/
theorem Lists.head (h : Lists d path place ((name, c) :: es)) :
    Reaches d (Path.inside path name) (place ++ [name]) c := by
  have hproper := h.proper _ List.mem_cons_self
  have hthere := h.there _ List.mem_cons_self
  refine ⟨h.sound, hthere, fun hc => h.leads.inside hproper ?_,
    fun q hq => find_inside h.leads hproper hq⟩
  rw [stands_of_get? hthere, hc]

/-- and the others keep theirs when that entry is touched. -/
theorem Lists.tail (h : Lists d path place ((name, c) :: es))
    (ht : Touched mode (place ++ [name]) d d') : Lists d' path place es := by
  obtain ⟨hname, hnames⟩ := List.nodup_cons.1 h.names
  refine ⟨ht.sound h.sound, h.leads.congr ht.directory ht.stands, fun x hx => ?_, hnames,
    fun x hx => h.proper x (List.mem_cons_of_mem _ hx)⟩
  have hne : name ≠ x.1 := by
    rintro rfl
    exact hname (List.mem_map.2 ⟨x, hx, rfl⟩)
  rw [ht.outside _ (by simpa using hne) (by simpa using hne.symm)]
  exact h.there x (List.mem_cons_of_mem _ hx)

/-- To set the mode of what the path leads to is to set the mode of the entry. -/
theorem Reaches.setMode (h : Reaches d path place c) (hc : c.target? = none)
    (hok : d.setMode path mode = .ok d') : ∃ a, c.attributes? = some a ∧
      d' = d.put place (c.setAttributes (d.process.granted a mode)) := by
  unfold Disk.setMode at hok
  cases hfind : d.find true path with
  | error e => rw [hfind] at hok; cases hok
  | ok q =>
    have hl := (leads_of_find h.sound hfind).resolve_right (by simp)
    obtain rfl : q = place := hl.unique (h.leads hc)
    rw [hfind] at hok
    simp only [bind, Except.bind, node, h.there] at hok
    split at hok
    · cases hok
    · rename_i a ha
      split at hok
      · cases hok
        exact ⟨a, ha, rfl⟩
      · cases hok

/-- A directory keeps its entries when its mode is set, and the path leads to it as before. -/
theorem Reaches.setMode_directory (h : Reaches d path place (.directory a es))
    (hok : d.setMode path mode = .ok d') :
    d' = d.put place (.directory (d.process.granted a mode) es) ∧ Touched mode place d d' ∧
      d'.get? place = some (.directory (d.process.granted a mode) es) ∧ Lists d' path place es := by
  obtain ⟨_, ⟨⟩, hd'⟩ := h.setMode rfl hok
  have ht : Touched mode place d d' := hd' ▸ touched_put h.there rfl
  have hget : d'.get? place = some (.directory (d.process.granted a mode) es) :=
    hd' ▸ get?_put_self h.there
  have hl : d'.Leads path place := (h.leads rfl).congr ht.directory ht.stands
  exact ⟨hd', ht, hget, .of_directory (ht.sound h.sound) hl hget⟩

/-- What a path leads to stands where it was found. -/
theorem find_of_stat {follow : Bool} (hok : d.stat follow path = .ok c) :
    ∃ place, d.find follow path = .ok place ∧ d.get? place = some c := by
  unfold stat at hok
  cases hfind : d.find follow path with
  | error e => rw [hfind] at hok; cases hok
  | ok place =>
    rw [hfind] at hok
    simp only [bind, Except.bind, node] at hok
    split at hok
    · cases hok
      exact ⟨place, rfl, by assumption⟩
    · cases hok

/-- What the path leads to, links followed, is the entry. -/
theorem stat_of_leads {n : Node} (hd : d.root.Sound) (hl : d.Leads path place)
    (hok : d.stat true path = .ok n) : d.get? place = some n := by
  obtain ⟨q, hfind, hget⟩ := find_of_stat hok
  obtain rfl : q = place := ((leads_of_find hd hfind).resolve_right (by simp)).unique hl
  exact hget

/-! ## Whole trees -/

/-- The modes at a place and below it are to be set: no others are, and all of these if nothing
fails. -/
structure Sets (mode : Nat) (place : Place) (d : Disk) (r : After Unit) : Prop where
  touched : Touched mode place d r.2
  all : r.1 = .ok () → ∀ q, place <+: q → r.2.look? q = (d.look? q).map (Look.chmod d.process mode)

/-- The modes of some entries of a directory and of what is below them are to be set. -/
structure SetsEntries (mode : Nat) (place : Place) (es : List (String × Node)) (d : Disk)
    (r : After Unit) : Prop where
  touched : Touched mode place d r.2
  itself : r.2.look? place = d.look? place
  all : r.1 = .ok () → ∀ x ∈ es, ∀ q, place ++ [x.1] <+: q →
    r.2.look? q = (d.look? q).map (Look.chmod d.process mode)

theorem Sets.failed (mode : Nat) (place : Place) (d : Disk) (e : SystemError) :
    Sets mode place d (.error e, d) :=
  ⟨.refl mode place d, fun h => by cases h⟩

/-- A link has no mode and nothing below it. -/
theorem Sets.link {target : String} (h : d.get? place = some (.link target)) :
    Sets mode place d (.ok (), d) := by
  refine ⟨.refl mode place d, fun _ q hq => ?_⟩
  obtain ⟨r, rfl⟩ := hq
  by_cases hr : r = []
  · rw [hr, List.append_nil, look?_of_get? h]
    rfl
  · rw [look?_below h rfl hr]
    rfl

theorem Sets.file {contents : List UInt8} (h : d.get? place = some (.file a contents)) :
    Sets mode place d (.ok (), d.put place (.file (d.process.granted a mode) contents)) := by
  have ht : Touched mode place d (d.put place (.file (d.process.granted a mode) contents)) :=
    touched_put h rfl
  refine ⟨ht, fun _ q hq => ?_⟩
  obtain ⟨r, rfl⟩ := hq
  by_cases hr : r = []
  · rw [hr, List.append_nil]
    exact look?_put_self h rfl
  · have hnone := look?_below h rfl hr
    rw [ht.look_of_none hnone, hnone]
    rfl

/-- The mode of a directory is set, and then those of its entries. -/
theorem Sets.directory (h : d.get? place = some (.directory a es))
    (hentries : SetsEntries mode place es
      (d.put place (.directory (d.process.granted a mode) es)) r) :
    Sets mode place d r := by
  have ht : Touched mode place d (d.put place (.directory (d.process.granted a mode) es)) :=
    touched_put h rfl
  have hself : (d.put place (.directory (d.process.granted a mode) es)).look? place =
      (d.look? place).map (Look.chmod d.process mode) := look?_put_self h rfl
  refine ⟨ht.trans hentries.touched, fun hok q hq => ?_⟩
  obtain ⟨rest, rfl⟩ := hq
  cases rest with
  | nil => rw [List.append_nil, hentries.itself, hself]
  | cons name names =>
    cases hname : es.lookup name with
    | some c =>
      have hlook : (d.put place (.directory (d.process.granted a mode) es)).look?
          (place ++ name :: names) = d.look? (place ++ name :: names) :=
        (look?_put h (d.process.granted a mode) _).trans (if_neg (by simp))
      have hall := hentries.all hok _ (Table.mem_of_lookup hname) (place ++ name :: names)
        ⟨names, by simp⟩
      rw [hall, hlook]
      rfl
    | none =>
      have hroot : d.root.get? place = some (.directory a es) := h
      have hnone : d.look? (place ++ name :: names) = none := by
        rw [look?, Disk.get?, Node.get?_append, hroot]
        simp [Node.get?, Node.child?, Node.entries, hname]
      rw [(ht.trans hentries.touched).look_of_none hnone, hnone]
      rfl

/-- The first entry fails, or the others follow. -/
theorem SetsEntries.cons {first : After Unit} {others : Disk → After Unit}
    (hfirst : Sets mode (place ++ [name]) d first)
    (hothers : SetsEntries mode place es first.2 (others first.2)) :
    SetsEntries mode place ((name, c) :: es) d (andThen first fun _ d => others d) := by
  have hself : ¬ place ++ [name] <+: place := fun hpre =>
    Nat.not_succ_le_self place.length (by simpa using hpre.length_le)
  obtain ⟨out, d'⟩ := first
  cases out with
  | error e =>
    exact ⟨hfirst.touched.above, hfirst.touched.look_of_not_below hself, fun hok => by cases hok⟩
  | ok =>
    have hprocess := hfirst.touched.process
    refine ⟨hfirst.touched.above.trans hothers.touched,
      hothers.itself.trans (hfirst.touched.look_of_not_below hself), fun hok x hx q hq => ?_⟩
    rcases List.mem_cons.1 hx with rfl | hx
    · exact hothers.touched.settled hprocess (hfirst.all rfl q hq)
    · show (others d').2.look? q = (d.look? q).map (Look.chmod d.process mode)
      have hall : (others d').2.look? q = (d'.look? q).map (Look.chmod d'.process mode) :=
        hothers.all hok x hx q hq
      rw [hall, show d'.process = d.process from hprocess]
      rcases hfirst.touched.look q with hsame | ⟨-, hset⟩
      · exact congrArg (Option.map _) hsame
      · rw [show d'.look? q = _ from hset, Option.map_map]
        exact congrArg (Option.map · _) (funext fun y => y.chmod_chmod)

mutual

/-- Setting the modes of a tree goes down the tree, and each path that it comes to is looked up on
the disk as it is by then. -/
theorem sets_setModeOf (mode : Nat) (c : Node) {d : Disk} {path : String} {place : Place}
    (h : Reaches d path place c) : Sets mode place d (setModeOf mode path c d) := by
  unfold setModeOf
  cases hfind : d.find false path with
  | error e => exact .failed mode place d e
  | ok q =>
    match c with
    | .link target => exact .link h.there
    | .file a contents =>
      cases hset : d.setMode path mode with
      | error e => exact .failed mode place d e
      | ok d' =>
        obtain ⟨_, ⟨⟩, rfl⟩ := h.setMode rfl hset
        exact .file h.there
    | .directory a es =>
      cases hset : d.setMode path mode with
      | error e => exact .failed mode place d e
      | ok d' =>
        obtain ⟨hd', ht, -, hlists⟩ := h.setMode_directory hset
        have hentries := sets_setModeOfEntries mode es hlists
        simp only [single, andThen]
        split
        · exact ⟨ht, fun hok => by cases hok⟩
        · exact .directory h.there (hd' ▸ hentries)
termination_by sizeOf c

theorem sets_setModeOfEntries (mode : Nat) (es : List (String × Node)) {d : Disk} {path : String}
    {place : Place} (h : Lists d path place es) :
    SetsEntries mode place es d (setModeOfEntries mode path es d) := by
  match es with
  | [] => exact ⟨.refl mode place d, rfl, fun _ x hx => by cases hx⟩
  | (name, c) :: es =>
    unfold setModeOfEntries
    have hfirst := sets_setModeOf mode c h.head
    exact .cons hfirst (sets_setModeOfEntries mode es (h.tail hfirst.touched))
termination_by sizeOf es

end

/-! ## The walk -/

/-- The names in the directory that a path leads to. -/
def names (d : Disk) (path : String) : Except SystemError (List String) := do
  let n ← d.stat true path
  d.check n .read
  match n with
  | .directory _ es => return es.map (·.1)
  | .file _ _ | .link _ => .error .notADirectory

/-- Visits one path after the other, up to the first that fails. -/
def visitAll (visit : String → Disk → Option (After Unit)) : List String → Disk →
    Option (After Unit)
  | [], d => some (.ok (), d)
  | path :: paths, d =>
    match visit path d with
    | some (.ok (), d) => visitAll visit paths d
    | other => other

/-- Sets the mode of what a path leads to and of everything below it, with nothing known of the disk
but what is looked up when its turn comes. Somebody who goes down as far as `depth` is not done. -/
def visit (mode : Nat) : (depth : Nat) → String → Disk → Option (After Unit)
  | 0, _, _ => none
  | depth + 1, path, d =>
    match d.stat false path with
    | .error e => some (.error e, d)
    | .ok (.link _) => some (.ok (), d)
    | .ok (.file _ _) => some (d.single (d.setMode path mode))
    | .ok (.directory _ _) =>
      match d.setMode path mode with
      | .error e => some (.error e, d)
      | .ok d =>
        match d.names path with
        | .error e => some (.error e, d)
        | .ok names => visitAll (visit mode depth) (names.map (Path.inside path)) d

/-- Whoever may go far enough down is done. -/
def Ends (walk : (depth : Nat) → Option (After Unit)) (r : After Unit) : Prop :=
  ∃ bound, ∀ depth ≥ bound, walk depth = some r

theorem Ends.one_deeper {walk : Nat → Option (After Unit)}
    (h : Ends (fun depth => walk (depth + 1)) r) : Ends walk r := by
  obtain ⟨bound, hbound⟩ := h
  refine ⟨bound + 1, fun depth hdepth => ?_⟩
  obtain ⟨depth, rfl⟩ := Nat.exists_eq_add_of_le' hdepth
  exact hbound _ (Nat.le_add_left bound depth)

theorem Reaches.stat (h : Reaches d path place c) (hfind : d.find false path = .ok q) :
    d.stat false path = .ok c := by
  obtain rfl := h.found q hfind
  rw [Disk.stat, hfind]
  simp only [bind, Except.bind, node, h.there]

/-- The names in a directory are those of its entries, if it can be found and read. -/
theorem Lists.names_eq (h : Lists d path place es)
    (hget : d.get? place = some (.directory a es)) : d.names path =
      (d.stat true path >>= (d.check · .read)).map fun _ => es.map (·.1) := by
  unfold Disk.names
  cases hstat : d.stat true path with
  | error e => rfl
  | ok n =>
    have hn : d.get? place = some n := stat_of_leads h.sound h.leads hstat
    obtain rfl : n = .directory a es := Option.some.inj (hn.symm.trans hget)
    simp only [bind, Except.bind]
    cases d.check (.directory a es) .read <;> rfl

mutual

/-- The walk comes to an end, however the links lead: it goes down the tree. -/
theorem visit_ends (mode : Nat) (c : Node) {d : Disk} {path : String} {place : Place}
    (h : Reaches d path place c) : Ends (visit mode · path d) (setModeOf mode path c d) := by
  refine .one_deeper ?_
  unfold visit setModeOf
  cases hfind : d.find false path with
  | error e =>
    rw [Disk.stat, hfind]
    exact ⟨0, fun _ _ => rfl⟩
  | ok q =>
    rw [h.stat hfind]
    match c with
    | .link target | .file a contents => exact ⟨0, fun _ _ => rfl⟩
    | .directory a es =>
      cases hset : d.setMode path mode with
      | error e => exact ⟨0, fun _ _ => rfl⟩
      | ok d' =>
        obtain ⟨-, -, hget, hlists⟩ := h.setMode_directory hset
        have hentries := visitAll_ends mode es hlists
        simp only [single, andThen, hlists.names_eq hget]
        cases d'.stat true path >>= (d'.check · .read) with
        | error e => exact ⟨0, fun _ _ => rfl⟩
        | ok => exact hentries
termination_by sizeOf c

theorem visitAll_ends (mode : Nat) (es : List (String × Node)) {d : Disk} {path : String}
    {place : Place} (h : Lists d path place es) :
    Ends (fun depth => visitAll (visit mode depth) ((es.map (·.1)).map (Path.inside path)) d)
      (setModeOfEntries mode path es d) := by
  match es with
  | [] => exact ⟨0, fun _ _ => rfl⟩
  | (name, c) :: es =>
    have hfirst := sets_setModeOf mode c h.head
    obtain ⟨bound, hbound⟩ := visit_ends mode c h.head
    obtain ⟨bound', hbound'⟩ := visitAll_ends mode es (h.tail hfirst.touched)
    refine ⟨max bound bound', fun depth hdepth => ?_⟩
    unfold setModeOfEntries
    simp only [List.map_cons, visitAll, hbound depth (by omega)]
    cases hout : setModeOf mode (Path.inside path name) c d with
    | mk out d' =>
      cases out with
      | error e => rfl
      | ok =>
        rw [hout] at hbound'
        exact hbound' depth (by omega)
termination_by sizeOf es

end

/-! ## A path -/

/-- A path that is found reaches what stands there. -/
theorem reaches_of_find (hd : d.root.Sound) (hfind : d.find false path = .ok place)
    (hget : d.get? place = some c) : Reaches d path place c := by
  refine ⟨hd, hget, fun hc => (leads_of_find hd hfind).resolve_right ?_,
    fun q hq => Except.ok.inj (hq.symm.trans hfind)⟩
  rintro ⟨-, target, htarget⟩
  obtain rfl := Option.some.inj (hget.symm.trans htarget)
  cases hc

theorem look?_eq_link {target : String} :
    d.look? q = some (.link target) ↔ d.get? q = some (.link target) := by
  rw [look?, Option.map_eq_some_iff]
  refine ⟨?_, fun h => ⟨_, h, rfl⟩⟩
  rintro ⟨n, hget, hlook⟩
  cases n with
  | link _ => cases hlook; exact hget
  | _ => cases hlook

theorem Touched.get?_link {target : String} (h : Touched mode place d d')
    (hget : d.get? q = some (.link target)) : d'.get? q = some (.link target) := by
  rw [← look?_eq_link] at hget ⊢
  rcases h.look q with hsame | ⟨-, hset⟩
  · rw [hsame, hget]
  · rw [hset, hget]
    rfl

theorem sets_setModeAll (hd : d.root.Sound) (hfind : d.find false path = .ok place) :
    Sets mode place d (d.setModeAll path mode) := by
  unfold setModeAll
  cases hstat : d.stat false path with
  | error e => exact .failed mode place d e
  | ok c =>
    obtain ⟨q, hq, hget⟩ := find_of_stat hstat
    obtain rfl : q = place := Except.ok.inj (hq.symm.trans hfind)
    exact sets_setModeOf mode c (reaches_of_find hd hfind hget)

theorem visit_ends_setModeAll (hd : d.root.Sound) (path : String) (mode : Nat) :
    Ends (visit mode · path d) (d.setModeAll path mode) := by
  unfold setModeAll
  cases hstat : d.stat false path with
  | error e =>
    refine .one_deeper ⟨0, fun depth _ => ?_⟩
    unfold visit
    rw [hstat]
  | ok c =>
    obtain ⟨place, hfind, hget⟩ := find_of_stat hstat
    exact visit_ends mode c (reaches_of_find hd hfind hget)

/-- **All modes of a tree are set, and no others.** The walk down from a path ends, wherever the
links lead. Whether it fails or not, it changes nothing but the modes of what stands at the path's
place or below it, links not being followed, and sets them to the mode that the process is granted
(`Process.granted`). If it does not fail, it has set all of them. Links stay as they are. The mode
that is granted is the one that is asked for, unless that has more than twelve bits or a group bit
that is withheld. -/
theorem modes_are_set_in_the_tree_alone (hd : d.root.Sound) (path : String) (mode : Nat) :
    Ends (visit mode · path d) (d.setModeAll path mode) ∧
    (∀ e, d.find false path = .error e → d.setModeAll path mode = (.error e, d)) ∧
    (∀ place, d.find false path = .ok place →
      (∀ q, (d.setModeAll path mode).2.look? q = d.look? q ∨ place <+: q ∧
        (d.setModeAll path mode).2.look? q = (d.look? q).map (Look.chmod d.process mode)) ∧
      ((d.setModeAll path mode).1 = .ok () → ∀ q, place <+: q →
        (d.setModeAll path mode).2.look? q = (d.look? q).map (Look.chmod d.process mode)) ∧
      ∀ q target, d.get? q = some (.link target) →
        (d.setModeAll path mode).2.get? q = some (.link target)) ∧
    ∀ a : Attributes, (d.process.granted a mode).mode = mode ↔
      mode < 0o10000 ∧ (d.process.keepsGroupBit a.gid ∨ ¬ hasBits mode groupBit) := by
  refine ⟨visit_ends_setModeAll hd path mode, fun e hfind => ?_, fun place hfind => ?_,
    fun a => d.process.granted_mode_eq_iff a mode⟩
  · rw [setModeAll, Disk.stat, hfind]
    rfl
  · have hsets : Sets mode place d (d.setModeAll path mode) := sets_setModeAll hd hfind
    exact ⟨hsets.touched.look, hsets.all, fun q target => hsets.touched.get?_link⟩

/-- A file that belongs to the process but not to a group that it is in. -/
def desk : Disk where
  root := .directory { mode := 0o755 } [("notes", .file { mode := 0o644, gid := 50 } [0x68])]

/-- Setting a mode may succeed and set another one. -/
theorem asked_for_may_be_withheld :
    (desk.setModeAll "notes" 0o2755).1 = .ok () ∧
      (desk.setModeAll "notes" 0o2755).2.look? ["notes"] =
        some (.file { mode := 0o755, gid := 50 } [0x68]) ∧
    (desk.setModeAll "notes" 0o10600).1 = .ok () ∧
      (desk.setModeAll "notes" 0o10600).2.look? ["notes"] =
        some (.file { mode := 0o600, gid := 50 } [0x68]) := by
  cbv

/-- A directory with a file, a link to the file, a link that leads nowhere, and a link up. -/
def yard : Disk where
  root := .directory { mode := 0o755 }
    [("srv", .directory { mode := 0o755 }
      [("out", .link ".."), ("notes", .file { mode := 0o644 } [0x68]), ("latest", .link "notes"),
        ("gone", .link "gone")])]

theorem sound_yard : yard.root.Sound := by
  refine .directory (by decide) (by decide) fun x hx => ?_
  obtain rfl := List.mem_singleton.1 hx
  refine .directory (by decide) (by decide) fun x hx => ?_
  simp only [List.mem_cons, List.not_mem_nil, or_false] at hx
  rcases hx with rfl | rfl | rfl | rfl
  · exact .link (by decide)
  · exact .file
  · exact .link (by decide)
  · exact .link (by decide)

theorem find_srv : yard.find false "srv" = .ok ["srv"] := by cbv

theorem setModeAll_srv : (yard.setModeAll "srv" 0o700).1 = .ok () := by cbv

/-- The link up is not followed. -/
theorem srv_alone_is_set : yard.root.Sound ∧ yard.find false "srv" = .ok ["srv"] ∧
    (yard.setModeAll "srv" 0o700).1 = .ok () ∧
    (∀ q, ["srv"] <+: q → (yard.setModeAll "srv" 0o700).2.look? q =
      (yard.look? q).map (Look.chmod yard.process 0o700)) ∧
    (yard.setModeAll "srv" 0o700).2.look? [] = yard.look? [] ∧
    (yard.setModeAll "srv" 0o700).2.get? ["srv", "out"] = some (.link "..") := by
  obtain ⟨-, -, hfound, -⟩ := modes_are_set_in_the_tree_alone sound_yard "srv" 0o700
  obtain ⟨hlook, hall, hlink⟩ := hfound ["srv"] find_srv
  exact ⟨sound_yard, find_srv, setModeAll_srv, hall setModeAll_srv,
    (hlook []).resolve_right (by decide), hlink _ _ rfl⟩

end Disk

end ServerLink
