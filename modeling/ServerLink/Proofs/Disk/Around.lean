import ServerLink.Proofs.Disk.Confined

/-!
# A directory and what is around it

A directory tree can stand at a place of many disks (`Around.fill`). Where one text leads to the
directory on all of them (`Around.Leads`, as a text of names does: `Around.leads_of_names`) and no
link in the tree leads out (`Enclosure`), a path below the directory has the same last step on all
of the disks (`Around.Leads.start`).
-/

namespace ServerLink.Disk

open ServerLink.Path (Part)

/-- A disk, and a place of it where something stands. -/
structure Around where
  disk : Disk
  place : Place
  stands : (disk.get? place).isSome

/-- The disk with something else at the place. -/
def Around.fill (o : Around) (n : Node) : Disk := o.disk.put o.place n

/-- How a process comes to a directory: the text of a path, and how many links it may still follow
when it is there. -/
structure Entrance where
  root : String
  left : Nat
  process : Process

/-- Where a path with this text starts on a disk. -/
def Around.origin (o : Around) (root : String) : Place :=
  if (Path.ofText root).absolute then [] else o.disk.directory

/-- Whatever directory stands at the place, the text leads there. Only a text that ends in a part
`.` needs to search the directory itself. -/
structure Around.Leads (o : Around) (e : Entrance) : Prop where
  process : o.disk.process = e.process
  through : ∀ (n : Node) (parts : List Part) (slash : Bool), n.isDirectory → parts ≠ [] →
    (o.fill n).lastStep maxLinks (o.origin e.root) ((Path.ofText e.root).parts ++ parts) slash =
      (o.fill n).lastStep e.left o.place parts slash
  arrives : ∀ (n : Node) (parts : List Part) (k : Nat) (slash follow : Bool), n.isDirectory →
    (Path.ofText e.root).parts = parts ++ List.replicate k .here →
    (parts = [] → (Path.ofText e.root).absolute) →
    ((Path.ofText e.root).parts.getLast? ≠ some .here ∨ o.disk.check n .search = .ok ()) →
    (follow || slash) = true →
    ((o.fill n).lastStep maxLinks (o.origin e.root) parts slash >>=
      (o.fill n).arrive follow (maxLinks + 1)) = .ok o.place

/-- A directory from which no link leads out. -/
structure Enclosure (n : Node) : Prop where
  confined : n.Confined 0
  directory : n.isDirectory

/-! ## The tree at its place -/

namespace Around

variable (o : Around) {n m : Node} {q : Place}

theorem get?_fill (n : Node) (q : Place) : (o.fill n).get? (o.place ++ q) = n.get? q :=
  Node.get?_put o.stands q

theorem alter_fill (n : Node) (change : Option Node → Option Node) (hq : q ≠ []) :
    (o.fill n).alter (o.place ++ q) change = o.fill (n.alter change q) := by
  simp only [fill, put, Disk.alter, Node.alter_put o.stands change hq]

/-- Beside the place and off the way to it, nothing depends on what stands there. -/
theorem get?_fill_outside (n m : Node) (hplace : ¬ o.place <+: q) (hq : ¬ q <+: o.place) :
    (o.fill m).get? q = (o.fill n).get? q :=
  (Node.get?_alter_outside o.disk.root _ hplace hq).trans
    (Node.get?_alter_outside o.disk.root _ hplace hq).symm

theorem put_fill (n : Node) (q : Place) (c : Node) :
    (o.fill n).put (o.place ++ q) c = o.fill (n.alter (fun _ => some c) q) := by
  by_cases hq : q = []
  · subst hq
    simp only [fill, put, Disk.alter, List.append_nil, Node.put_put o.stands, Node.alter,
      Option.getD_some]
  · exact o.alter_fill n _ hq

end Around

namespace Enclosure

variable {n c : Node} {q : Place} {change : Option Node → Option Node}

/-- A change below the top of an enclosure, to something that leads nowhere out of it. -/
theorem alter (h : Enclosure n) (hq : q ≠ [])
    (hnew : ∀ c, change (n.get? q) = some c → c.Confined q.length)
    (hname : n.get? q = none → ∀ c, change none = some c →
      ∀ dir name, q = dir ++ [name] → Path.Proper name) :
    Enclosure (n.alter change q) where
  confined := h.confined.alter (by simpa using hnew) hname
  directory := (n.isDirectory_alter change hq).trans h.directory

/-- What stands in an enclosure is replaced by what leads nowhere out of it. -/
theorem put (h : Enclosure n) (hstands : (n.get? q).isSome) (hc : c.Confined q.length)
    (htop : q = [] → c.isDirectory) : Enclosure (n.alter (fun _ => some c) q) := by
  by_cases hq : q = []
  · subst hq
    exact ⟨hc, htop rfl⟩
  · refine h.alter hq (fun d hd => Option.some.inj hd ▸ hc) fun hnone => ?_
    rw [hnone] at hstands
    cases hstands

end Enclosure

namespace Entrance

variable (e : Entrance)

/-- The tree as a disk of its own. -/
def inner (n : Node) : Disk := { root := n, process := e.process }

/-- The text leads below the entrance, by these parts. -/
structure Below (parts : List Part) (path : String) : Prop where
  absolute : (Path.ofText path).absolute = (Path.ofText e.root).absolute
  reads : (Path.ofText path).parts = (Path.ofText e.root).parts ++ parts
  down : .up ∉ parts
  slash : parts = [] → path ≠ "" → (Path.ofText path).trailingSlash = true
  plain : parts = [] → (Path.ofText e.root).parts.getLast? ≠ some .here

/-- The last step of a path below the entrance, taken in the tree alone. -/
def start (n : Node) (parts : List Part) (path : String) : Except SystemError LastStep :=
  if maxPath ≤ path.utf8ByteSize then .error .nameTooLong
  else (e.inner n).lastStep e.left [] parts (Path.ofText path).trailingSlash

end Entrance

section

variable {e : Entrance} {o : Around} {n : Node} {parts : List Part} {path : String}

theorem Around.Leads.holds (ho : o.Leads e) (n : Node) : (o.fill n).Holds o.place (e.inner n) where
  get? := o.get?_fill n
  process := ho.process

theorem Around.Leads.process_fill (ho : o.Leads e) (n : Node) : (o.fill n).process = e.process :=
  ho.process

theorem Entrance.Below.ne_empty (hp : e.Below parts path) (hne : parts ≠ []) : path ≠ "" := by
  rintro rfl
  have hparts := hp.reads
  rw [show (Path.ofText "").parts = [] from rfl] at hparts
  exact hne (List.append_eq_nil_iff.1 hparts.symm).2

theorem Entrance.Below.wellNamed (hp : e.Below parts path) : Path.WellNamed parts :=
  fun name hname => Path.wellNamed_ofText path name (by
    rw [hp.reads]
    exact List.mem_append_right _ hname)

theorem Around.Leads.start (ho : o.Leads e) (hn : Enclosure n) (hp : e.Below parts path)
    (hne : parts ≠ []) :
    (o.fill n).start path = (e.start n parts path).map (.below o.place) := by
  have hempty : path.isEmpty = false := by simpa using hp.ne_empty hne
  unfold Disk.start Entrance.start
  rw [hempty]
  split
  · contradiction
  · split
    · rfl
    · have horigin : (if (Path.ofText path).absolute then [] else (o.fill n).directory) =
          o.origin e.root := by
        rw [hp.absolute]; rfl
      have hwalk : (o.fill n).lastStep e.left (o.place ++ []) parts
          (Path.ofText path).trailingSlash = _ :=
        (ho.holds n).lastStep hn.confined hne (Path.stays_of_not_up hp.down)
      rw [List.append_nil] at hwalk
      simp only [horigin, hp.reads, ho.through n parts _ hn.directory hne, hwalk]

theorem Entrance.start_inside (hn : Enclosure n) (hp : e.Below parts path) (hne : parts ≠ [])
    {s : LastStep} (hok : e.start n parts path = .ok s) : s.Inside := by
  unfold Entrance.start at hok
  split at hok
  · cases hok
  · exact lastStep_inside hn.confined hne (Path.stays_of_not_up hp.down) hp.wellNamed hok

/-- A text of the directory's own path is empty, or too long, or leads to the directory. Parts `.`
may lack at its end. -/
theorem start_self (hn : Enclosure n) {k : Nat}
    (habsolute : (Path.ofText path).absolute = (Path.ofText e.root).absolute)
    (hreads : (Path.ofText e.root).parts = (Path.ofText path).parts ++ List.replicate k .here)
    (hsearch : (Path.ofText e.root).parts.getLast? ≠ some .here ∨
      (e.inner n).check n .search = .ok ()) (hempty : path ≠ "") :
    (∀ o : Around, (o.fill n).start path = .error .nameTooLong) ∨
      ∀ o : Around, o.Leads e → ∃ s : LastStep, (o.fill n).start path = .ok s ∧
        s.slash = (Path.ofText path).trailingSlash ∧ ∀ follow, (follow || s.slash) = true →
          (o.fill n).arrive follow (maxLinks + 1) s = .ok o.place := by
  by_cases hlong : maxPath ≤ path.utf8ByteSize
  · left
    intro o
    simp only [Disk.start, String.isEmpty_iff, hempty, if_false, if_pos hlong]
  right
  intro o ho
  have hstart : (o.fill n).start path = (o.fill n).lastStep maxLinks (o.origin e.root)
      (Path.ofText path).parts (Path.ofText path).trailingSlash := by
    simp only [Disk.start, String.isEmpty_iff, hempty, if_false, if_neg hlong, habsolute]
    rfl
  have htop (hnil : (Path.ofText path).parts = []) : (Path.ofText e.root).absolute := by
    by_contra hrelative
    rw [← habsolute] at hrelative
    have hnone : path.toList = [] :=
      Path.eq_nil_of_partsOf hnil (by simpa [Path.ofText] using hrelative)
    exact hempty (by simpa using hnone)
  have hopen : (Path.ofText e.root).parts.getLast? ≠ some .here ∨
      o.disk.check n .search = .ok () := hsearch.imp_right fun h => by
    rw [← h, ← (ho.holds n).check]
    rfl
  have harrives (follow : Bool) :=
    ho.arrives n _ k (Path.ofText path).trailingSlash follow hn.directory hreads htop hopen
  rw [hstart]
  cases hlast : (o.fill n).lastStep maxLinks (o.origin e.root) (Path.ofText path).parts
      (Path.ofText path).trailingSlash with
  | error err =>
    have := harrives true rfl
    rw [hlast] at this
    cases this
  | ok s =>
    refine ⟨s, rfl, slash_lastStep hlast, fun follow hfollow => ?_⟩
    rw [slash_lastStep hlast] at hfollow
    have := harrives follow hfollow
    rwa [hlast] at this

/-- The text of the directory's own path with a slash behind it, which is no text if the root has
none. -/
theorem Entrance.Below.start_self (hn : Enclosure n) (hp : e.Below [] path) :
    (∃ err, (path ≠ "" → err = .nameTooLong) ∧ ∀ o : Around, (o.fill n).start path = .error err) ∨
      ∀ o : Around, o.Leads e → ∃ s : LastStep, (o.fill n).start path = .ok s ∧ s.slash = true ∧
        ∀ follow, (o.fill n).arrive follow (maxLinks + 1) s = .ok o.place := by
  by_cases hempty : path = ""
  · subst hempty
    exact .inl ⟨.notFound, fun h => absurd rfl h, fun o => rfl⟩
  · rcases Disk.start_self (k := 0) hn hp.absolute (by simpa using hp.reads.symm)
      (.inl (hp.plain rfl)) hempty with hlong | hself
    · exact .inl ⟨_, fun _ => rfl, hlong⟩
    · refine .inr fun o ho => ?_
      obtain ⟨s, hs, hslash, harrive⟩ := hself o ho
      rw [hp.slash rfl hempty] at hslash
      exact ⟨s, hs, hslash, fun follow => harrive follow (by simp [hslash])⟩

end

/-! ## Entrances by names alone -/

/-- Each of the names is a directory in the one before it, and all but the last are searched. -/
def Passes (d : Disk) (dir : Place) (names : List String) : Prop :=
  ∀ before name after, names = before ++ name :: after →
    (d.node (dir ++ before) >>= (d.check · .search)) = .ok () ∧
      ∃ a es, d.child (dir ++ before) name = .ok (some (.directory a es))

section

variable {d : Disk} {dir : Place} {links : Nat} {slash : Bool}

theorem lastStep_names {names : List String} (h : Passes d dir names) {parts : List Part}
    (hne : parts ≠ []) :
    d.lastStep links dir (names.map .name ++ parts) slash =
      d.lastStep links (dir ++ names) parts slash := by
  induction names generalizing dir with
  | nil => simp
  | cons name names ih =>
    obtain ⟨hsearch, a, es, hchild⟩ := h [] name names rfl
    rw [List.append_nil] at hsearch hchild
    obtain ⟨next, rest, hrest⟩ :=
      List.exists_cons_of_ne_nil (l := names.map Part.name ++ parts) (by simp [hne])
    rw [List.map_cons, List.cons_append, hrest, lastStep.eq_def]
    simp only [hsearch, hchild]
    rw [← hrest, ih, List.append_assoc, List.singleton_append]
    intro before x after heq
    have := h (name :: before) x after (by rw [heq]; rfl)
    rwa [List.append_assoc, List.singleton_append]

theorem arrive_names {names : List String} (h : Passes d dir names) (hne : names ≠ [])
    (follow : Bool) (fuel : Nat) :
    (d.lastStep links dir (names.map .name) slash >>= d.arrive follow (fuel + 1)) =
      .ok (dir ++ names) := by
  cases names using List.reverseRecOn with
  | nil => exact absurd rfl hne
  | append_singleton names name =>
    have hbefore : Passes d dir names := fun before x after heq =>
      h before x (after ++ [name]) (by simp [heq])
    obtain ⟨hsearch, a, es, hchild⟩ := h names name [] rfl
    rw [List.map_append, List.map_singleton, lastStep_names hbefore (by simp), lastStep]
    cases hnode : d.node (dir ++ names) with
    | error err => rw [hnode] at hsearch; cases hsearch
    | ok c =>
      rw [hnode] at hsearch
      change d.check c .search = .ok () at hsearch
      simp [bind, Except.bind, pure, Except.pure, hsearch, arrive, hchild, checkSlash, Except.map,
        Node.isDirectory]

end

/-- Whatever is put at the place, on the way there stand the directories that stood there. -/
theorem Around.get?_way (o : Around) {n : Node} (hn : n.isDirectory) {p q : Place}
    (h : o.place = p ++ q) :
    ∃ c, (o.fill n).get? p = some c ∧ c.isDirectory ∧
      (q ≠ [] → ∃ c₀, o.disk.get? p = some c₀ ∧ c.attributes? = c₀.attributes?) := by
  by_cases hq : q = []
  · subst hq
    rw [List.append_nil] at h
    subst h
    exact ⟨n, by simpa [Node.get?] using o.get?_fill n [], hn, by simp⟩
  · have hstands := o.stands
    rw [h, Disk.get?, Node.get?_append] at hstands
    cases hp : o.disk.root.get? p with
    | none => rw [hp] at hstands; cases hstands
    | some c₀ =>
      obtain ⟨next, rest, rfl⟩ := List.exists_cons_of_ne_nil hq
      rw [hp] at hstands
      obtain ⟨a, es, -, rfl, -, -⟩ := Node.directory_of_get?_cons (n := c₀) hstands
      refine ⟨(Node.directory a es).alter (fun _ => some n) (next :: rest), ?_,
        Node.isDirectory_alter _ _ hq, fun _ => ⟨_, hp, Node.attributes?_alter _ _ hq⟩⟩
      simp only [fill, put, Disk.alter, Disk.get?, h, Node.get?_alter_above _ _ hq, hp,
        Option.map_some]

/-- A text of names that are directories to be searched leads to the last of them. -/
theorem Around.leads_of_names {o : Around} {e : Entrance} (names : List String)
    (hprocess : o.disk.process = e.process) (hleft : e.left = maxLinks)
    (hparts : (Path.ofText e.root).parts = names.map .name)
    (hplace : o.place = o.origin e.root ++ names)
    (hsearch : ∀ before name after, names = before ++ name :: after →
      (o.disk.node (o.origin e.root ++ before) >>= (o.disk.check · .search)) = .ok () ∧
        name.utf8ByteSize ≤ maxName) : o.Leads e := by
  have hpasses {n : Node} (hn : n.isDirectory) : Passes (o.fill n) (o.origin e.root) names := by
    intro before name after heq
    obtain ⟨hcheck, hshort⟩ := hsearch before name after heq
    obtain ⟨c, hc, -, hattr⟩ := o.get?_way hn (p := o.origin e.root ++ before)
      (q := name :: after) (by rw [hplace, heq, List.append_assoc])
    obtain ⟨c₀, hc₀, hattr⟩ := hattr (by simp)
    have hnode : (o.fill n).node (o.origin e.root ++ before) = .ok c := by rw [Disk.node, hc]
    constructor
    · have hnode₀ : o.disk.node (o.origin e.root ++ before) = .ok c₀ := by rw [Disk.node, hc₀]
      rw [hnode₀] at hcheck
      rw [hnode, ← hcheck]
      change (o.fill n).check c .search = o.disk.check c₀ .search
      unfold check
      rw [hattr]
      rfl
    · obtain ⟨d, hd, hdirectory, -⟩ := o.get?_way hn (p := o.origin e.root ++ before ++ [name])
        (q := after) (by rw [hplace, heq]; simp)
      rw [Disk.get?, Node.get?_snoc] at hd
      rw [Disk.get?] at hc
      rw [hc, Option.bind_some] at hd
      cases d with
      | directory a es =>
        refine ⟨a, es, ?_⟩
        rw [Disk.child, if_neg (by omega), hnode]
        exact congrArg Except.ok hd
      | file _ _ | link _ => cases hdirectory
  refine ⟨hprocess, fun n parts slash hn hne => ?_,
    fun n parts k slash follow hn hroot htop _ _ => ?_⟩
  · rw [hparts, hplace, hleft, lastStep_names (hpasses hn) hne]
  · cases k with
    | succ k =>
      have : Part.here ∈ (Path.ofText e.root).parts := by simp [hroot]
      simp [hparts] at this
    | zero =>
      obtain rfl : parts = names.map .name := by simpa [hroot] using hparts
      by_cases hnames : names = []
      · subst hnames
        simp [hplace, lastStep, arrive, Around.origin, htop rfl, bind, Except.bind]
      · rw [arrive_names (hpasses hn) hnames, hplace]

end ServerLink.Disk
