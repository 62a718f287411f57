import ServerLink.Proofs.Disk.Operations

/-!
# Operations on whole trees below an entrance

An operation made of single ones may fail on the way and leaves what was done before. On all disks
to whose directory an entrance leads it leaves the same tree in the directory and has the same
outcome (`Entrance.Uniform`).
-/

namespace ServerLink.Disk

open ServerLink.Path (Part)

/-- What is done on each disk has one outcome and leaves one tree, from which no link leads out. -/
def Entrance.Uniform {β : Type} (e : Entrance) (f : Around → β × Disk) : Prop :=
  ∃ out m, Enclosure m ∧ ∀ o : Around, o.Leads e → f o = (out, o.fill m)

variable {β : Type} {e : Entrance} {n : Node} {parts : List Part} {path : String}

/-! ## How uniform operations are made up -/

namespace Entrance.Uniform

theorem congr {f g : Around → β × Disk} (hg : e.Uniform g)
    (h : ∀ o : Around, o.Leads e → f o = g o) : e.Uniform f := by
  obtain ⟨out, m, hm, hall⟩ := hg
  exact ⟨out, m, hm, fun o ho => (h o ho).trans (hall o ho)⟩

/-- Nothing changes. -/
theorem stay {f : Around → β × Disk} (hn : Enclosure n) (out : β)
    (h : ∀ o : Around, o.Leads e → f o = (out, o.fill n)) : e.Uniform f :=
  ⟨out, n, hn, h⟩

/-- The outcome may be put in other words. -/
theorem map {γ : Type} {f : Around → β × Disk} (hf : e.Uniform f) (g : β → γ) :
    e.Uniform fun o => (g (f o).1, (f o).2) := by
  obtain ⟨out, m, hm, hall⟩ := hf
  exact .stay hm (g out) fun o ho => by rw [hall o ho]

/-- Where an entrance leads to no disk, there is nothing to show. -/
theorem of_leads {f : Around → After Unit} (hn : Enclosure n)
    (h : ∀ o : Around, o.Leads e → e.Uniform f) : e.Uniform f := by
  by_cases hex : ∃ o : Around, o.Leads e
  · exact h hex.choose hex.choose_spec
  · exact .stay hn (.ok ()) fun o ho => absurd ⟨o, ho⟩ hex

theorem single {f : Around → Except SystemError Disk} (hn : Enclosure n) (h : e.Steady f) :
    e.Uniform fun o => (o.fill n).single (f o) := by
  obtain ⟨r, hgood, hall⟩ := h
  cases r with
  | error err => exact .stay hn (.error err) fun o ho => by rw [hall o ho]; rfl
  | ok m => exact .stay (hgood m rfl) (.ok ()) fun o ho => by rw [hall o ho]; rfl

theorem andThen {f : Around → After Unit} {g : Around → Disk → After Unit} (hf : e.Uniform f)
    (hg : ∀ m, Enclosure m → e.Uniform fun o => g o (o.fill m)) :
    e.Uniform fun o => Disk.andThen (f o) fun _ d => g o d := by
  obtain ⟨out, m, hm, hall⟩ := hf
  cases out with
  | error err => exact .stay hm (.error err) fun o ho => by rw [hall o ho]; rfl
  | ok => exact (hg m hm).congr fun o ho => by rw [hall o ho]; rfl

theorem unlessGone {f : Around → After Unit} (hf : e.Uniform f) :
    e.Uniform fun o => Disk.unlessGone (f o) := by
  obtain ⟨out, m, hm, hall⟩ := hf
  by_cases hgone : out = .error .notFound
  · exact .stay hm (.ok ()) fun o ho => by rw [hall o ho, hgone]; rfl
  · refine .stay hm out fun o ho => ?_
    rw [hall o ho, Disk.unlessGone]
    rintro d ⟨⟩
    exact hgone rfl

end Entrance.Uniform

/-! ## Removing -/

mutual

theorem uniform_removeNode (c : Node) (dir : Place) (name : String) {n : Node} (hn : Enclosure n) :
    e.Uniform fun o => removeNode (o.place ++ dir) name c (o.fill n) := by
  match c with
  | .file _ _ =>
    simp only [removeNode]
    exact .single hn (steady_removeEntry hn dir name)
  | .link _ =>
    simp only [removeNode]
    exact .single hn (steady_removeEntry hn dir name)
  | .directory a es =>
    unfold removeNode
    cases hsearch : (e.inner n).node dir >>= ((e.inner n).check · .search) with
    | error err =>
      refine .stay hn (.error err) fun o ho => ?_
      simp only [(ho.holds n).node, (ho.holds n).check, hsearch]
    | ok =>
      cases hread : (e.inner n).check (.directory a es) .read with
      | error err =>
        refine .stay hn (.error err) fun o ho => ?_
        simp only [(ho.holds n).node, (ho.holds n).check, hsearch, hread]
      | ok =>
        have hentries := uniform_removeEntries es (dir ++ [name]) hn
        refine (hentries.andThen (g := fun o d => d.single (d.removeEntry (o.place ++ dir) name))
          fun m hm => .single hm (steady_removeEntry hm dir name)).congr fun o ho => ?_
        simp only [(ho.holds n).node, (ho.holds n).check, hsearch, hread, List.append_assoc]

theorem uniform_removeEntries (es : List (String × Node)) (dir : Place) {n : Node}
    (hn : Enclosure n) : e.Uniform fun o => removeEntries (o.place ++ dir) es (o.fill n) := by
  match es with
  | [] => exact .stay hn (.ok ()) fun o _ => rfl
  | (name, c) :: es =>
    unfold removeEntries
    exact (uniform_removeNode c dir name hn).andThen
      (g := fun o d => removeEntries (o.place ++ dir) es d)
      fun m hm => uniform_removeEntries es dir hm

end

theorem uniform_removeAll (hn : Enclosure n) (hp : e.Below parts path) (hne : parts ≠ []) :
    e.Uniform fun o => (o.fill n).removeAll path := by
  unfold Disk.removeAll
  obtain ⟨r, hr⟩ := find_alike hn hp false
  cases r with
  | error err => exact .stay hn (.error err) fun o ho => by rw [hr o ho]; rfl
  | ok q =>
    match hnode : (e.inner n).node q with
    | .error err =>
      refine .stay hn (.error err) fun o ho => ?_
      simp only [hr o ho, Except.map, (ho.holds n).node, hnode]
    | .ok (.link target) =>
      refine (Entrance.Uniform.single hn (steady_unlink hn hp hne)).congr fun o ho => ?_
      simp only [hr o ho, Except.map, (ho.holds n).node, hnode]
    | .ok (.file _ _) =>
      refine .stay hn (.error .notADirectory) fun o ho => ?_
      simp only [hr o ho, Except.map, (ho.holds n).node, hnode]
    | .ok (.directory a es) =>
      cases hread : (e.inner n).check (.directory a es) .read with
      | error err =>
        refine .stay hn (.error err) fun o ho => ?_
        simp only [hr o ho, Except.map, (ho.holds n).node, hnode, (ho.holds n).check, hread]
      | ok =>
        refine ((uniform_removeEntries es q hn).andThen
          (g := fun _ d => Disk.unlessGone (d.single (d.removeDirectory path))) fun m hm =>
            .unlessGone (.single hm (steady_removeDirectory hm hp hne))).congr fun o ho => ?_
        simp only [hr o ho, Except.map, (ho.holds n).node, hnode, (ho.holds n).check, hread]

/-! ## Setting modes -/

/-- An entry of what a path below the entrance leads to is below the entrance. -/
theorem Entrance.Below.entry (hp : e.Below parts path) {name : String} (hname : Path.Proper name) :
    e.Below (parts ++ [.name name]) (Path.inside path name) where
  absolute := by
    have hhead : name.toList.head? ≠ some '/' := by
      simpa [Path.ofText] using congrArg Path.absolute hname
    rw [Path.absolute_inside hhead, hp.absolute]
  reads := by
    rw [Path.parts_inside, hp.reads, congrArg Path.parts hname, List.append_assoc]
  down := by simpa using hp.down
  slash := by simp
  plain := by simp

mutual

theorem uniform_setModeOf (mode : Nat) (c : Node) {depth : Nat} (hc : c.Confined depth) {n : Node}
    (hn : Enclosure n) {parts : List Part} {path : String} (hp : e.Below parts path) :
    e.Uniform fun o => setModeOf mode path c (o.fill n) := by
  unfold setModeOf
  obtain ⟨r, hr⟩ := find_alike hn hp false
  cases r with
  | error err => exact .stay hn (.error err) fun o ho => by rw [hr o ho]; rfl
  | ok q =>
    have hmode {m : Node} (hm : Enclosure m) :
        e.Uniform fun o => (o.fill m).single ((o.fill m).setMode path mode) :=
      .single hm (steady_setMode hm hp mode)
    match c, hc with
    | .link target, _ =>
      refine .stay hn (.ok ()) fun o ho => ?_
      simp only [hr o ho, Except.map]
    | .file a contents, _ =>
      refine (hmode hn).congr fun o ho => ?_
      simp only [hr o ho, Except.map]
    | .directory a es, .directory names entries =>
      refine ((hmode hn).andThen (g := fun _ d =>
        match d.stat true path >>= (d.check · .read) with
        | .error err => (.error err, d)
        | .ok () => setModeOfEntries mode path es d) fun m hm => ?_).congr fun o ho => ?_
      · obtain ⟨r, -, hr⟩ := stat_alike hm hp true
        cases hread : r >>= ((e.inner m).check · .read) with
        | error err =>
          refine .stay hm (.error err) fun o ho => ?_
          simp only [hr o ho, (ho.holds m).check, hread]
        | ok =>
          refine (uniform_setModeOfEntries mode es names entries hm hp).congr fun o ho => ?_
          simp only [hr o ho, (ho.holds m).check, hread]
      · rw [hr o ho]
        rfl
termination_by sizeOf c

theorem uniform_setModeOfEntries (mode : Nat) (es : List (String × Node)) {depth : Nat}
    (hnames : ∀ x ∈ es, Path.Proper x.1) (hentries : ∀ x ∈ es, x.2.Confined depth) {n : Node}
    (hn : Enclosure n) {parts : List Part} {path : String} (hp : e.Below parts path) :
    e.Uniform fun o => setModeOfEntries mode path es (o.fill n) := by
  match es with
  | [] => exact .stay hn (.ok ()) fun o _ => rfl
  | (name, c) :: es =>
    unfold setModeOfEntries
    have hfirst := List.mem_cons_self (a := (name, c)) (l := es)
    exact (uniform_setModeOf mode c (hentries _ hfirst) hn (hp.entry (hnames _ hfirst))).andThen
      (g := fun _ d => setModeOfEntries mode path es d)
      fun m hm => uniform_setModeOfEntries mode es
        (fun x hx => hnames x (List.mem_cons_of_mem _ hx))
        (fun x hx => hentries x (List.mem_cons_of_mem _ hx)) hm hp
termination_by sizeOf es

end

theorem uniform_setModeAll (hn : Enclosure n) (hp : e.Below parts path) (mode : Nat) :
    e.Uniform fun o => (o.fill n).setModeAll path mode := by
  unfold Disk.setModeAll
  obtain ⟨r, hgood, hr⟩ := stat_alike hn hp false
  cases r with
  | error err => exact .stay hn (.error err) fun o ho => by rw [hr o ho]
  | ok c =>
    obtain ⟨depth, hc⟩ := hgood c rfl
    exact (uniform_setModeOf mode c hc hn hp).congr fun o ho => by rw [hr o ho]

/-! ## Making directories -/

theorem check_eq_error {d : Disk} {c : Node} {access : Access} {err : SystemError}
    (h : d.check c access = .error err) : err = .accessDenied := by
  unfold check at h
  split at h
  · split at h
    · cases h
    · cases h; rfl
  · cases h

/-- A walk starts with a search of the directory where it starts. -/
theorem lastStep_of_search {d : Disk} {links : Nat} {dir : Place} {slash : Bool}
    {err : SystemError} (hne : parts ≠ [])
    (h : d.node dir >>= (d.check · .search) = .error err) :
    d.lastStep links dir parts slash = .error err := by
  match parts with
  | [p] =>
    rw [lastStep]
    cases hnode : d.node dir with
    | error err => rw [hnode] at h; cases h; rfl
    | ok c =>
      rw [hnode] at h
      change d.check c .search = .error err at h
      simp only [bind, Except.bind, h]
  | p :: q :: ps => rw [lastStep.eq_def]; simp only [h]

/-- Parts `.` lead nowhere. -/
theorem lastStep_here {d : Disk} {links : Nat} {dir : Place} {slash : Bool} (hne : parts ≠ [])
    (h : ∀ p ∈ parts, p = .here) (hsearch : d.node dir >>= (d.check · .search) = .ok ()) :
    d.lastStep links dir parts slash = .ok ⟨dir, some .here, slash, links⟩ := by
  induction parts with
  | nil => exact absurd rfl hne
  | cons p ps ih =>
    obtain rfl : p = .here := h p List.mem_cons_self
    cases ps with
    | nil =>
      rw [lastStep]
      cases hnode : d.node dir with
      | error err => rw [hnode] at hsearch; cases hsearch
      | ok c =>
        rw [hnode] at hsearch
        change d.check c .search = .ok () at hsearch
        simp only [bind, Except.bind, hsearch]
        rfl
    | cons q ps =>
      rw [lastStep, hsearch]
      exact ih (by simp) fun p hp => h p (List.mem_cons_of_mem _ hp)

/-- Below an entrance a directory above is missing only if the path has a name in it, and if the
directory of the entrance may be searched. -/
theorem missing_above {o : Around} {mode : Nat} (ho : o.Leads e) (hn : Enclosure n)
    (hp : e.Below parts path) (hempty : path ≠ "")
    (h : (o.fill n).makeDirectory path mode = .error .notFound) :
    (∃ p ∈ parts, p ≠ .here) ∧ (e.inner n).check n .search = .ok () := by
  by_cases hne : parts = []
  · subst hne
    rcases hp.start_self hn with ⟨err, herr, hstart⟩ | hself
    · rw [makeDirectory, hstart, herr hempty] at h
      cases h
    · obtain ⟨s, hstart, -, harrive⟩ := hself o ho
      rw [makeDirectory_of_arrive hstart (harrive true)] at h
      cases h
  have hlong : ¬ maxPath ≤ path.utf8ByteSize := fun hlong => by
    simp only [makeDirectory, Disk.start, String.isEmpty_iff, hempty, if_false, if_pos hlong] at h
    cases h
  have hstart := ho.start hn hp hne
  rw [Entrance.start, if_neg hlong] at hstart
  have hsearch : (e.inner n).node [] >>= ((e.inner n).check · .search) =
      (e.inner n).check n .search := rfl
  rw [makeDirectory, hstart] at h
  cases hcheck : (e.inner n).check n .search with
  | error err =>
    rw [lastStep_of_search hne (hsearch.trans hcheck), check_eq_error hcheck] at h
    cases h
  | ok =>
    refine ⟨?_, rfl⟩
    by_contra hhere
    push Not at hhere
    rw [lastStep_here hne hhere (hsearch.trans hcheck)] at h
    cases h

/-- If two lists of parts end in one part that leads somewhere and the first ends with parts that
lead somewhere, too, the rest of the second lies in these parts or ends before them. -/
theorem parts_above {root above : List Part} {p : Part} {i j : Nat}
    (hleads : ∃ q ∈ parts, q ≠ .here)
    (h : root ++ parts = above ++ (List.replicate i .here ++ p :: List.replicate j .here)) :
    (∃ rest, rest ≠ [] ∧ rest <+: parts ∧ above = root ++ rest) ∨
      ∃ k, root = above ++ List.replicate k .here := by
  rcases List.append_eq_append_iff.1 h with ⟨rest, habove, hparts⟩ | ⟨rest, hroot, hend⟩
  · by_cases hrest : rest = []
    · exact .inr ⟨0, by simp [habove, hrest]⟩
    · exact .inl ⟨rest, hrest, ⟨_, hparts.symm⟩, habove⟩
  · right
    obtain ⟨q, hq, hne⟩ := hleads
    have hcount := congrArg (List.countP fun q => decide (q ≠ .here)) hend
    simp only [List.countP_append, List.countP_cons, List.countP_replicate, ne_eq, not_true,
      decide_false, Bool.false_eq_true, if_false, Nat.zero_add] at hcount
    have hpos : 0 < parts.countP fun q => decide (q ≠ .here) :=
      List.countP_pos_iff.2 ⟨q, hq, by simpa using hne⟩
    have hzero : rest.countP (fun q => decide (q ≠ .here)) = 0 := by
      split at hcount <;> simp only [ne_eq] at hpos ⊢ <;> omega
    have hhere : rest = List.replicate rest.length .here := by
      refine List.eq_replicate_of_mem fun q hq => ?_
      by_contra hne
      exact List.countP_eq_zero.1 hzero q hq (by simpa using hne)
    exact ⟨rest.length, by rw [hroot, ← hhere]⟩

/-- What comes of the attempt to make one directory, where it may be there already. -/
theorem uniform_makeOne (hn : Enclosure n) (hp : e.Below parts path) (mode : Nat) :
    e.Uniform fun o => (match (o.fill n).makeDirectory path mode with
      | .ok d => (.ok (), d)
      | .error err => if (o.fill n).isDirectory path then (.ok (), o.fill n)
          else (.error err, o.fill n) : After Unit) := by
  obtain ⟨r, hgood, hall⟩ := steady_makeDirectory hn hp mode
  obtain ⟨b, hb⟩ := isDirectory_alike hn hp
  cases r with
  | ok m => exact .stay (hgood m rfl) (.ok ()) fun o ho => by simp only [hall o ho, Except.map]
  | error err =>
    refine .stay hn (if b then .ok () else .error err) fun o ho => ?_
    simp only [hall o ho, Except.map, hb o ho]
    split <;> rfl

/-- The directory of an entrance is there, whatever text leads to it. -/
theorem uniform_makeDirectories_self {k : Nat} (hn : Enclosure n) (mode depth : Nat)
    (habsolute : (Path.ofText path).absolute = (Path.ofText e.root).absolute)
    (hreads : (Path.ofText e.root).parts = (Path.ofText path).parts ++ List.replicate k .here)
    (hsearch : (e.inner n).check n .search = .ok ()) :
    e.Uniform fun o => makeDirectories mode depth path (o.fill n) := by
  cases depth with
  | zero => exact .stay hn (.error .notFound) fun o _ => rfl
  | succ depth =>
    unfold makeDirectories
    by_cases hempty : path = ""
    · exact .stay hn (.ok ()) fun o _ => by simp [hempty]
    rcases start_self hn habsolute hreads (.inr hsearch) hempty with hstart | hself
    · refine .stay hn (.error .nameTooLong) fun o _ => ?_
      simp only [String.isEmpty_iff, hempty, if_false, makeDirectory, isDirectory, stat, find, hstart]
      rfl
    · refine .stay hn (.ok ()) fun o ho => ?_
      obtain ⟨s, hstart, -, harrive⟩ := hself o ho
      have hthere := harrive true rfl
      have hnode : (o.fill n).node o.place = .ok n := by
        have hnode := (ho.holds n).node []
        rwa [List.append_nil] at hnode
      simp only [String.isEmpty_iff, hempty, if_false, makeDirectory_of_arrive hstart hthere,
        isDirectory, stat, find, hstart]
      simp [bind, Except.bind, hthere, hnode, hn.directory]

theorem uniform_makeDirectories (mode depth : Nat) (hn : Enclosure n) (hp : e.Below parts path) :
    e.Uniform fun o => makeDirectories mode depth path (o.fill n) := by
  induction depth generalizing parts path n with
  | zero => exact .stay hn (.error .notFound) fun o _ => rfl
  | succ depth ih =>
    refine .of_leads hn fun o ho => ?_
    unfold makeDirectories
    by_cases hempty : path = ""
    · exact .stay hn (.ok ()) fun o _ => by simp [hempty]
    simp only [String.isEmpty_iff, hempty, if_false]
    obtain ⟨r, hgood, hall⟩ := steady_makeDirectory hn hp mode
    by_cases hmissing : r = .error .notFound
    · subst hmissing
      obtain ⟨hleads, hsearch⟩ := missing_above ho hn hp hempty (hall o ho)
      cases habove : Path.parent? path with
      | none => exact .stay hn (.error .notFound) fun o ho => by simp only [hall o ho, Except.map]
      | some above =>
        have hparent : e.Uniform fun o => makeDirectories mode depth above (o.fill n) := by
          rcases Path.parts_parent? habove with rfl | ⟨habsolute, i, p, j, -, hparts⟩
          · cases depth with
            | zero => exact .stay hn (.error .notFound) fun o _ => rfl
            | succ depth => exact .stay hn (.ok ()) fun o _ => by simp [makeDirectories]
          · rw [hp.absolute] at habsolute
            rw [hp.reads] at hparts
            rcases parts_above hleads hparts with ⟨rest, hrest, hpre, hreads⟩ | ⟨k, hreads⟩
            · exact ih hn ⟨habsolute, hreads, fun hup => hp.down (hpre.subset hup),
                fun hnil => absurd hnil hrest, fun hnil => absurd hnil hrest⟩
            · exact uniform_makeDirectories_self hn mode depth habsolute hreads hsearch
        refine (hparent.andThen (g := fun _ d => match d.makeDirectory path mode with
          | .ok d => (.ok (), d)
          | .error err => if d.isDirectory path then (.ok (), d) else (.error err, d))
            fun m hm => uniform_makeOne hm hp mode).congr fun o ho => ?_
        simp only [hall o ho]
        rfl
    · refine (uniform_makeOne hn hp mode).congr fun o ho => ?_
      simp only [hall o ho]
      cases r with
      | ok m => rfl
      | error err =>
        simp only [Except.map]
        split
        · next heq => cases heq
        · next heq => cases heq; exact absurd rfl hmissing
        · next heq => cases heq; rfl

theorem uniform_makeAll (hn : Enclosure n) (hp : e.Below parts path) (mode : Nat) :
    e.Uniform fun o => (o.fill n).makeAll path mode :=
  uniform_makeDirectories mode (path.length + 1) hn hp

end ServerLink.Disk
