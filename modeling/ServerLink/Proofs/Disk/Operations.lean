import ServerLink.Disk.Trees
import ServerLink.Proofs.Disk.Around

/-!
# Single operations below an entrance

On every disk to whose directory an entrance leads, a single operation on a path below the entrance
has the same outcome: it fails in the same way, or it leaves the disk as it was but for the same new
tree in the directory (`Entrance.Steady`). What a path below the entrance leads to is the same on
all of the disks, too (`find_alike`, `stat_alike`, `read_alike`).
-/

namespace ServerLink.Disk

open ServerLink.Path (Part)

/-- What is done on each disk comes to one outcome in the tree alone, and still no link leads out. -/
def Entrance.Steady (e : Entrance) (f : Around → Except SystemError Disk) : Prop :=
  ∃ r : Except SystemError Node, (∀ m, r = .ok m → Enclosure m) ∧
    ∀ o : Around, o.Leads e → f o = r.map o.fill

variable {e : Entrance} {n c : Node} {q : Place} {s : LastStep} {parts : List Part} {path : String}

/-! ## How steady operations are made up -/

namespace Entrance.Steady

theorem error {f : Around → Except SystemError Disk} (err : SystemError)
    (h : ∀ o : Around, o.Leads e → f o = .error err) : e.Steady f :=
  ⟨.error err, by simp, h⟩

theorem ok {f : Around → Except SystemError Disk} (hn : Enclosure n)
    (h : ∀ o : Around, o.Leads e → f o = .ok (o.fill n)) : e.Steady f :=
  ⟨.ok n, fun m hm => by cases hm; exact hn, h⟩

theorem congr {f g : Around → Except SystemError Disk} (hg : e.Steady g)
    (h : ∀ o : Around, o.Leads e → f o = g o) : e.Steady f := by
  obtain ⟨r, hgood, hall⟩ := hg
  exact ⟨r, hgood, fun o ho => (h o ho).trans (hall o ho)⟩

/-- What follows the first walk has to be steady wherever the walk ends. -/
theorem of_start {k : Around → LastStep → Except SystemError Disk} (hn : Enclosure n)
    (hp : e.Below parts path) (hne : parts ≠ [])
    (h : ∀ s : LastStep, s.Inside → e.Steady fun o => k o (s.below o.place)) :
    e.Steady fun o => (o.fill n).start path >>= k o := by
  cases hstart : e.start n parts path with
  | error err =>
    refine error err fun o ho => ?_
    simp only [ho.start hn hp hne, hstart]
    rfl
  | ok s =>
    refine (h s (Entrance.start_inside hn hp hne hstart)).congr fun o ho => ?_
    simp only [ho.start hn hp hne, hstart]
    rfl

end Entrance.Steady

/-! ## What a path leads to -/

theorem get?_of_node (h : (e.inner n).node q = .ok c) : n.get? q = some c := by
  simp only [Disk.node, Disk.get?, Entrance.inner] at h
  split at h
  · rwa [← Except.ok.inj h]
  · cases h

theorem find_alike (hn : Enclosure n) (hp : e.Below parts path) (follow : Bool) :
    ∃ r : Except SystemError Place, ∀ o : Around, o.Leads e →
      (o.fill n).find follow path = r.map (o.place ++ ·) := by
  unfold Disk.find
  by_cases hne : parts = []
  · subst hne
    rcases hp.start_self hn with ⟨err, -, hstart⟩ | hself
    · exact ⟨.error err, fun o _ => by rw [hstart]; rfl⟩
    · refine ⟨.ok [], fun o ho => ?_⟩
      obtain ⟨s, hstart, -, harrive⟩ := hself o ho
      rw [hstart]
      exact (harrive follow).trans (by simp [Except.map])
  · cases hstart : e.start n parts path with
    | error err =>
      refine ⟨.error err, fun o ho => ?_⟩
      rw [ho.start hn hp hne, hstart]
      rfl
    | ok s =>
      refine ⟨(e.inner n).arrive follow (maxLinks + 1) s, fun o ho => ?_⟩
      rw [ho.start hn hp hne, hstart]
      exact (ho.holds n).arrive hn.confined (Entrance.start_inside hn hp hne hstart)

theorem stat_alike (hn : Enclosure n) (hp : e.Below parts path) (follow : Bool) :
    ∃ r : Except SystemError Node, (∀ c, r = .ok c → ∃ depth, c.Confined depth) ∧
      ∀ o : Around, o.Leads e → (o.fill n).stat follow path = r := by
  unfold Disk.stat
  obtain ⟨r, hr⟩ := find_alike hn hp follow
  cases r with
  | error err => exact ⟨.error err, by simp, fun o ho => by rw [hr o ho]; rfl⟩
  | ok q =>
    refine ⟨(e.inner n).node q, fun c hc => ⟨_, hn.confined.get? (get?_of_node hc)⟩,
      fun o ho => ?_⟩
    rw [hr o ho]
    exact (ho.holds n).node q

theorem isDirectory_alike (hn : Enclosure n) (hp : e.Below parts path) :
    ∃ b : Bool, ∀ o : Around, o.Leads e → (o.fill n).isDirectory path = b := by
  obtain ⟨r, -, hr⟩ := stat_alike hn hp true
  cases r with
  | error err => exact ⟨false, fun o ho => by rw [Disk.isDirectory, hr o ho]⟩
  | ok c => exact ⟨c.isDirectory, fun o ho => by rw [Disk.isDirectory, hr o ho]⟩

theorem read_alike (hn : Enclosure n) (hp : e.Below parts path) :
    ∃ r : Except SystemError (List UInt8), ∀ o : Around, o.Leads e → (o.fill n).read path = r := by
  obtain ⟨r, -, hr⟩ := stat_alike hn hp true
  cases r with
  | error err => exact ⟨.error err, fun o ho => by rw [Disk.read, hr o ho]; rfl⟩
  | ok c =>
    cases hcheck : (e.inner n).check c .read with
    | error err =>
      refine ⟨.error err, fun o ho => ?_⟩
      simp only [Disk.read, hr o ho, (ho.holds n).check, hcheck, bind, Except.bind]
    | ok =>
      refine ⟨match c with
        | .file _ contents => .ok contents
        | .directory _ _ | .link _ => .error .isADirectory, fun o ho => ?_⟩
      simp only [Disk.read, hr o ho, (ho.holds n).check, hcheck, bind, Except.bind]
      cases c <;> rfl

/-! ## Attributes -/

/-- What follows the way to a place has to be steady for whatever stands there. -/
theorem Entrance.Steady.of_find {follow : Bool}
    {k : Around → Place → Node → Except SystemError Disk} (hn : Enclosure n)
    (hp : e.Below parts path)
    (h : ∀ q c, n.get? q = some c → e.Steady fun o => k o (o.place ++ q) c) :
    e.Steady fun o => (o.fill n).find follow path >>= fun place =>
      (o.fill n).node place >>= fun c => k o place c := by
  obtain ⟨r, hr⟩ := find_alike hn hp follow
  cases r with
  | error err => exact .error err fun o ho => by rw [hr o ho]; rfl
  | ok q =>
    cases hnode : (e.inner n).node q with
    | error err =>
      refine .error err fun o ho => ?_
      rw [hr o ho]
      simp [Except.map, (ho.holds n).node, hnode, bind, Except.bind]
    | ok c =>
      refine (h q c (get?_of_node hnode)).congr fun o ho => ?_
      rw [hr o ho]
      simp [Except.map, (ho.holds n).node, hnode, bind, Except.bind]

theorem steady_setAttributes (hn : Enclosure n) (hq : n.get? q = some c) (a : Attributes) :
    e.Steady fun o => .ok ((o.fill n).put (o.place ++ q) (c.setAttributes a)) := by
  refine .ok (n := n.alter (fun _ => some (c.setAttributes a)) q) ?_ fun o _ => by
    rw [o.put_fill]
  refine hn.put (by rw [hq]; rfl) ?_ fun htop => ?_
  · exact (Nat.zero_add q.length ▸ hn.confined.get? hq).setAttributes a
  · subst htop
    obtain rfl := Option.some.inj hq
    match n, hn.directory with
    | .directory _ _, _ => rfl

theorem steady_setMode (hn : Enclosure n) (hp : e.Below parts path) (mode : Nat) :
    e.Steady fun o => (o.fill n).setMode path mode := by
  unfold Disk.setMode
  refine .of_find hn hp fun q c hq => ?_
  cases hattr : c.attributes? with
  | none => exact .error .notFound fun o _ => rfl
  | some a =>
    cases howns : e.process.owns a with
    | true =>
      refine (steady_setAttributes hn hq (e.process.granted a mode)).congr fun o ho => ?_
      simp only [ho.process_fill n, howns, if_true]
      rfl
    | false =>
      refine .error .notPermitted fun o ho => ?_
      simp [ho.process_fill n, howns]

theorem steady_setOwner (hn : Enclosure n) (hp : e.Below parts path) (uid gid : Nat) :
    e.Steady fun o => (o.fill n).setOwner path uid gid := by
  unfold Disk.setOwner
  refine .of_find hn hp fun q c hq => ?_
  cases hattr : c.attributes? with
  | none => exact .error .notFound fun o _ => rfl
  | some a =>
    cases hgive : e.process.mayGive a uid gid with
    | true =>
      refine (steady_setAttributes hn hq (e.process.given a c.isDirectory uid gid)).congr
        fun o ho => ?_
      simp only [ho.process_fill n, hgive, if_true]
      rfl
    | false =>
      refine .error .notPermitted fun o ho => ?_
      simp [ho.process_fill n, hgive]

/-! ## Entries -/

/-- What follows a look at the entries has to be steady for whatever is under the name. -/
theorem Entrance.Steady.of_child {k : Around → Option Node → Except SystemError Disk}
    {dir : Place} {name : String}
    (h : ∀ c?, (e.inner n).child dir name = .ok c? → e.Steady fun o => k o c?) :
    e.Steady fun o => (o.fill n).child (o.place ++ dir) name >>= k o := by
  cases hchild : (e.inner n).child dir name with
  | error err =>
    refine .error err fun o ho => ?_
    rw [(ho.holds n).child, hchild]
    rfl
  | ok c? =>
    refine (h c? hchild).congr fun o ho => ?_
    rw [(ho.holds n).child, hchild]
    rfl

/-- What changes the entries of a directory is steady if the change is. -/
theorem Entrance.Steady.of_checkEntries {k : Around → Except SystemError Disk} (n : Node)
    (dir : Place) (h : e.Steady k) :
    e.Steady fun o => (o.fill n).checkEntries (o.place ++ dir) >>= fun _ => k o := by
  cases hcheck : (e.inner n).checkEntries dir with
  | error err =>
    refine .error err fun o ho => ?_
    rw [(ho.holds n).checkEntries, hcheck]
    rfl
  | ok =>
    refine h.congr fun o ho => ?_
    rw [(ho.holds n).checkEntries, hcheck]
    rfl

theorem steady_erase (hn : Enclosure n) (dir : Place) (name : String) :
    e.Steady fun o => .ok ((o.fill n).erase (o.place ++ dir ++ [name])) := by
  refine .ok (n := n.alter (fun _ => none) (dir ++ [name])) ?_ fun o _ => ?_
  · exact hn.alter (by simp) (by simp) (by simp)
  · rw [List.append_assoc, erase, o.alter_fill n _ (by simp)]

/-- Something that leads nowhere is put into a directory. -/
theorem Enclosure.put_entry (hn : Enclosure n) (dir : Place) {name : String}
    (hname : Path.Proper name) (hc : ∀ depth, c.Confined depth) :
    Enclosure (n.alter (fun _ => some c) (dir ++ [name])) := by
  refine hn.alter (by simp) (fun d hd => Option.some.inj hd ▸ hc _) fun _ d _ dir' name' heq => ?_
  obtain ⟨-, hlast⟩ := List.append_inj' heq rfl
  exact (List.cons.inj hlast).1 ▸ hname

theorem steady_removeEntry (hn : Enclosure n) (dir : Place) (name : String) :
    e.Steady fun o => (o.fill n).removeEntry (o.place ++ dir) name := by
  refine (Entrance.Steady.of_checkEntries n dir (steady_erase hn dir name)).congr fun o _ => ?_
  unfold Disk.removeEntry
  cases (o.fill n).checkEntries (o.place ++ dir) <;> rfl

theorem steady_unlink (hn : Enclosure n) (hp : e.Below parts path) (hne : parts ≠ []) :
    e.Steady fun o => (o.fill n).unlink path := by
  unfold Disk.unlink
  refine .of_start hn hp hne fun s hs => ?_
  simp only [LastStep.below_part?, LastStep.below_dir, LastStep.below_slash]
  match hpart : s.part? with
  | none => exact absurd hpart hs.part
  | some .here => exact .error .isADirectory fun o _ => rfl
  | some .up => exact .error .isADirectory fun o _ => rfl
  | some (.name name) =>
    refine .of_child fun c? _ => ?_
    match c? with
    | none => exact .error .notFound fun o _ => rfl
    | some c =>
      by_cases hslash : s.slash
      · refine .error (if c.isDirectory then .isADirectory else .notADirectory) fun o _ => ?_
        simp [hslash]
      · simp only [hslash, Bool.false_eq_true, if_false]
        refine .of_checkEntries n s.dir ?_
        by_cases hdirectory : c.isDirectory
        · exact .error .isADirectory fun o _ => by simp [hdirectory]
        · exact (steady_erase hn s.dir name).congr fun o _ => by simp [hdirectory]; rfl

theorem steady_removeDirectory (hn : Enclosure n) (hp : e.Below parts path) (hne : parts ≠ []) :
    e.Steady fun o => (o.fill n).removeDirectory path := by
  unfold Disk.removeDirectory
  refine .of_start hn hp hne fun s hs => ?_
  simp only [LastStep.below_part?, LastStep.below_dir]
  match hpart : s.part? with
  | none => exact absurd hpart hs.part
  | some .here => exact .error .invalidArgument fun o _ => rfl
  | some .up => exact .error .directoryNotEmpty fun o _ => rfl
  | some (.name name) =>
    refine .of_child fun c? _ => ?_
    match c? with
    | none => exact .error .notFound fun o _ => rfl
    | some c =>
      refine .of_checkEntries n s.dir ?_
      by_cases hdirectory : c.isDirectory
      · by_cases hempty : c.entries.isEmpty
        · exact (steady_erase hn s.dir name).congr fun o _ => by simp [hdirectory, hempty]; rfl
        · exact .error .directoryNotEmpty fun o _ => by simp [hdirectory, hempty]
      · exact .error .notADirectory fun o _ => by simp [hdirectory]

/-! ## New directories -/

/-- No directory is made where the text of a path leads to something already. -/
theorem makeDirectory_of_arrive {d : Disk} {fuel mode : Nat} {place : Place} {follow : Bool}
    (hstart : d.start path = .ok s) (h : d.arrive follow fuel s = .ok place) :
    d.makeDirectory path mode = .error .alreadyExists := by
  rw [Disk.makeDirectory, hstart]
  cases fuel with
  | zero => cases h
  | succ fuel =>
    unfold arrive at h
    simp only [bind, Except.bind]
    cases hpart : s.part? with
    | none => rfl
    | some part =>
      cases part with
      | here | up => rfl
      | name name =>
        simp only [hpart] at h ⊢
        cases hchild : d.child s.dir name with
        | error err =>
          rw [hchild] at h
          cases h
        | ok c? =>
          cases c? with
          | none =>
            rw [hchild] at h
            cases h
          | some c => rfl

theorem steady_makeDirectory (hn : Enclosure n) (hp : e.Below parts path) (mode : Nat) :
    e.Steady fun o => (o.fill n).makeDirectory path mode := by
  by_cases hne : parts = []
  · subst hne
    rcases hp.start_self hn with ⟨err, -, hstart⟩ | hself
    · exact .error err fun o _ => by rw [Disk.makeDirectory, hstart]; rfl
    · refine .error .alreadyExists fun o ho => ?_
      obtain ⟨s, hstart, -, harrive⟩ := hself o ho
      exact makeDirectory_of_arrive hstart (harrive true)
  · unfold Disk.makeDirectory
    refine .of_start hn hp hne fun s hs => ?_
    simp only [LastStep.below_part?, LastStep.below_dir]
    match hpart : s.part? with
    | none => exact absurd hpart hs.part
    | some .here | some .up => exact .error .alreadyExists fun o _ => rfl
    | some (.name name) =>
      refine .of_child fun c? _ => ?_
      match c? with
      | some _ => exact .error .alreadyExists fun o _ => rfl
      | none =>
        refine .of_checkEntries n s.dir ?_
        cases hnode : (e.inner n).node s.dir with
        | error err =>
          refine .error err fun o ho => ?_
          rw [(ho.holds n).node, hnode]
          rfl
        | ok dir =>
          let a := e.process.madeIn dir (mode &&& 0o1777) true
          refine .ok (hn.put_entry s.dir (hs.named name hpart) (c := .directory a []) fun _ =>
            .directory (by simp) (by simp)) fun o ho => ?_
          rw [(ho.holds n).node, hnode]
          simp only [bind, Except.bind, ho.process_fill n, List.append_assoc, o.put_fill]
          rfl

/-! ## Contents -/

/-- A file is made, or emptied, in the same place of the tree and with the same attributes. -/
theorem createAt_alike (hn : Enclosure n) (hs : s.Inside) (fuel : Nat) :
    ∃ r : Except SystemError (Place × Node),
      (∀ q m, r = .ok (q, m) → q ≠ [] ∧ Enclosure m) ∧
        ∀ o : Around, o.Leads e → (o.fill n).createAt fuel (s.below o.place) =
          r.map fun x => (o.place ++ x.1, o.fill x.2) := by
  induction fuel generalizing s with
  | zero => exact ⟨.error .filesystemLoop, by simp, fun o _ => rfl⟩
  | succ fuel ih =>
    unfold Disk.createAt
    simp only [LastStep.below_part?, LastStep.below_dir, LastStep.below_slash]
    match hpart : s.part? with
    | none => exact absurd hpart hs.part
    | some .here | some .up => exact ⟨.error .isADirectory, by simp, fun o _ => rfl⟩
    | some (.name name) =>
      by_cases hslash : s.slash
      · exact ⟨.error .isADirectory, by simp, fun o _ => by simp [hslash, Except.map]⟩
      simp only [hslash, Bool.false_eq_true, if_false]
      match hchild : (e.inner n).child s.dir name with
      | .error err =>
        refine ⟨.error err, by simp, fun o ho => ?_⟩
        simp [(ho.holds n).child, hchild, Except.map]
      | .ok (some (.directory _ _)) =>
        refine ⟨.error .isADirectory, by simp, fun o ho => ?_⟩
        simp [(ho.holds n).child, hchild, Except.map]
      | .ok (some (.link target)) =>
        cases hnext : (e.inner n).lastStepOfLink s target with
        | error err =>
          refine ⟨.error err, by simp, fun o ho => ?_⟩
          simp only [(ho.holds n).child, hchild,
            (ho.holds n).lastStepOfLink hn.confined hchild, hnext]
          rfl
        | ok next =>
          obtain ⟨r, hgood, hall⟩ := ih (lastStepOfLink_inside hn.confined hchild hnext)
          refine ⟨r, hgood, fun o ho => ?_⟩
          simp only [(ho.holds n).child, hchild,
            (ho.holds n).lastStepOfLink hn.confined hchild, hnext]
          exact hall o ho
      | .ok (some (.file a contents)) =>
        cases hcheck : (e.inner n).check (.file a contents) .write with
        | error err =>
          refine ⟨.error err, by simp, fun o ho => ?_⟩
          simp [(ho.holds n).child, hchild, (ho.holds n).check, hcheck, bind, Except.bind, Except.map]
        | ok =>
          refine ⟨.ok (s.dir ++ [name], n.alter (fun _ => some (.file a [])) (s.dir ++ [name])),
            ?_, fun o ho => ?_⟩
          · rintro q m ⟨⟩
            exact ⟨by simp, hn.put_entry s.dir (hs.named name hpart) fun _ => .file⟩
          · simp [(ho.holds n).child, hchild, (ho.holds n).check, hcheck, bind, Except.bind,
              Except.map, pure, Except.pure, o.put_fill]
      | .ok none =>
        cases hcheck : (e.inner n).checkEntries s.dir with
        | error err =>
          refine ⟨.error err, by simp, fun o ho => ?_⟩
          simp [(ho.holds n).child, hchild, (ho.holds n).checkEntries, hcheck, bind, Except.bind,
            Except.map]
        | ok =>
          cases hnode : (e.inner n).node s.dir with
          | error err =>
            refine ⟨.error err, by simp, fun o ho => ?_⟩
            simp [(ho.holds n).child, hchild, (ho.holds n).checkEntries, hcheck,
              (ho.holds n).node, hnode, bind, Except.bind, Except.map]
          | ok dir =>
            let a := e.process.madeIn dir 0o666 false
            refine ⟨.ok (s.dir ++ [name], n.alter (fun _ => some (.file a [])) (s.dir ++ [name])),
              ?_, fun o ho => ?_⟩
            · rintro q m ⟨⟩
              exact ⟨by simp, hn.put_entry s.dir (hs.named name hpart) fun _ => .file⟩
            · simp [(ho.holds n).child, hchild, (ho.holds n).checkEntries, hcheck,
                (ho.holds n).node, hnode, ho.process_fill n, bind, Except.bind, Except.map, pure,
                Except.pure, o.put_fill, a]

/-- A file with these contents, and anything else as it is. -/
def withContents (contents : List UInt8) : Option Node → Option Node
  | some (.file a _) => some (.file a contents)
  | other => other

theorem steady_write (hn : Enclosure n) (hp : e.Below parts path) (contents : List UInt8) :
    e.Steady fun o => (o.fill n).write path contents := by
  unfold Disk.write
  by_cases hne : parts = []
  · subst hne
    rcases hp.start_self hn with ⟨err, -, hstart⟩ | hself
    · exact .error err fun o _ => by rw [hstart]; rfl
    -- a slash is behind the last step, and no file is made before a slash
    · refine .error .isADirectory fun o ho => ?_
      obtain ⟨s, hstart, hslash, -⟩ := hself o ho
      rw [hstart]
      simp only [bind, Except.bind]
      unfold Disk.createAt
      match s.part? with
      | none | some .here | some .up => rfl
      | some (.name name) => simp [hslash]
  · refine .of_start hn hp hne fun s hs => ?_
    obtain ⟨r, hgood, hall⟩ := createAt_alike (e := e) hn hs (maxLinks + 1)
    match r with
    | .error err => exact .error err fun o ho => by rw [hall o ho]; rfl
    | .ok (q, m) =>
      obtain ⟨hq, hm⟩ := hgood q m rfl
      refine .ok (n := m.alter (withContents contents) q)
        (hm.alter hq (fun c hc => ?_) fun _ c hc => by simp [withContents] at hc) fun o ho => ?_
      · unfold withContents at hc
        split at hc
        · cases hc; exact .file
        · exact Nat.zero_add q.length ▸ hm.confined.get? hc
      · rw [hall o ho, ← o.alter_fill m _ hq]
        rfl

end ServerLink.Disk
