import Mathlib
import ServerLink.Files.Local
import ServerLink.Proofs.Disk.Trees

/-!
# A service with a root stays in it

A service whose root stands on a disk changes nothing but what is in the root, and what it answers
depends on nothing else, as long as no link in the root leads out (`rooted_requests_stay_inside`). A
request does not make a link, so this is kept along any run (`rooted_runs_stay_inside`). What a
path says is looked at before its links are, and a link that leads up leads out
(`link_leads_out_of_root`).
-/

namespace ServerLink

open ServerLink.Path (Part)
open Disk

namespace FileRequest

/-- The request is to take something away. -/
def removes : FileRequest → Bool
  | .delete _ | .removeAll _ => true
  | .write _ _ _ | .read _ | .exists _ | .chown _ _ _ | .chmodAll _ _ | .mkdirAll _ _ => false

/-- The path of the request leads on from the root, or it is the root's own. The root itself is not
to be taken out of the directory above, and its path is not to need a search of it. -/
def IsInside (request : FileRequest) (root : String) : Prop :=
  (∃ p ∈ (Path.ofText request.path).parts, p ≠ .here) ∨
    request.removes = false ∧ (Path.ofText root).parts.getLast? ≠ some .here

end FileRequest

namespace LocalFiles

variable {e : Entrance} {n : Node} {parts : List Part} {path text : String}

/-! ## The text of a path in the root -/

theorem startsWith_slash : path.startsWith "/" = true ↔ path.toList.head? = some '/' := by
  rw [String.startsWith_string_iff]
  constructor
  · rintro ⟨rest, hrest⟩
    simp [← hrest]
  · intro h
    obtain ⟨rest, hrest⟩ := List.head?_eq_some_iff.1 h
    exact ⟨rest, by simp [hrest]⟩

/-- What a service with a root makes of a path is the text of a path in the root, with the parts
that the path has in its middle. -/
theorem resolve_rooted {root : String} (h : resolve { root := some root } path = .ok text) :
    ∃ relative i j, text = Path.inside root relative ∧ relative.toList.head? ≠ some '/' ∧
      (Path.ofText path).parts =
        List.replicate i .here ++ (Path.ofText relative).parts ++ List.replicate j .here ∧
      .up ∉ (Path.ofText path).parts := by
  unfold resolve at h
  split at h
  · cases h
  next hup =>
  have hdown : Part.up ∉ (Path.ofText path).parts := by simpa [Path.leadsUp] using hup
  simp only at h
  split at h
  · obtain rfl := Except.ok.inj h
    obtain ⟨i, j, hparts⟩ := Path.partsOf_trim path.toList
    refine ⟨_, i, j, rfl, ?_, ?_, hdown⟩
    · simpa using Path.head?_trim path.toList
    · simpa [Path.parts_ofText] using hparts
  · next hslash =>
    obtain rfl := Except.ok.inj h
    refine ⟨path, 0, 0, by rw [Path.join, if_neg hslash], ?_, by simp, hdown⟩
    rwa [startsWith_slash] at hslash

/-- A request inside is served below the entrance of the root. -/
theorem below_of_resolve (h : resolve { root := some e.root } path = .ok text)
    (hinside : (∃ p ∈ (Path.ofText path).parts, p ≠ .here) ∨
      (Path.ofText e.root).parts.getLast? ≠ some .here) :
    ∃ parts, e.Below parts text ∧
      ((∃ p ∈ (Path.ofText path).parts, p ≠ .here) → parts ≠ []) := by
  obtain ⟨relative, i, j, rfl, hhead, hparts, hdown⟩ := resolve_rooted h
  have honward : (∃ p ∈ (Path.ofText path).parts, p ≠ .here) →
      (Path.ofText relative).parts ≠ [] := by
    rintro ⟨p, hp, hne⟩ hnil
    rw [hparts, hnil, List.append_nil, List.replicate_append_replicate] at hp
    exact hne (List.eq_of_mem_replicate hp)
  refine ⟨(Path.ofText relative).parts, ⟨Path.absolute_inside hhead, Path.parts_inside _ _,
    fun hup => hdown (by rw [hparts]; simp [hup]), fun hnil hempty => ?_, fun hnil => ?_⟩, honward⟩
  · obtain rfl : relative = "" := by
      simpa using Path.eq_nil_of_partsOf hnil hhead
    exact Path.trailingSlash_inside_empty hempty
  · exact hinside.resolve_left fun hleads => honward hleads hnil

/-! ## Requests -/

/-- What is done with a path inside is done below the entrance. -/
theorem uniform_onPath {α : Type} {act : String → Disk → After α} (hn : Enclosure n)
    (hinside : (∃ p ∈ (Path.ofText path).parts, p ≠ .here) ∨
      (Path.ofText e.root).parts.getLast? ≠ some .here)
    (hact : ∀ parts text, e.Below parts text →
      ((∃ p ∈ (Path.ofText path).parts, p ≠ .here) → parts ≠ []) →
      e.Uniform fun o => act text (o.fill n)) :
    e.Uniform fun o => onPath { root := some e.root } path act (o.fill n) := by
  unfold onPath
  cases hresolve : resolve { root := some e.root } path with
  | error err => exact .stay hn (.error (.io err)) fun o _ => rfl
  | ok text =>
    cases hcheck : checkText text with
    | error err => exact .stay hn (.error (.io err)) fun o _ => by simp only [hcheck]
    | ok =>
      obtain ⟨parts, hp, honward⟩ := below_of_resolve hresolve hinside
      exact ((hact parts text hp honward).map (·.mapError fun e => .io (.system e))).congr
        fun o _ => by simp only [hcheck]

/-- A path that leads to the same thing on every disk is there on all of them or on none. -/
theorem uniform_isThere (hn : Enclosure n)
    (hinside : (∃ p ∈ (Path.ofText path).parts, p ≠ .here) ∨
      (Path.ofText e.root).parts.getLast? ≠ some .here) :
    e.Uniform fun o => isThere { root := some e.root } path (o.fill n) := by
  refine uniform_onPath hn hinside fun parts text hp _ => ?_
  obtain ⟨r, -, hr⟩ := stat_alike hn hp true
  match r with
  | .ok c => exact .stay hn (.ok true) fun o ho => by simp only [hr o ho]
  | .error err =>
    by_cases hgone : err = .notFound
    · subst hgone
      exact .stay hn (.ok false) fun o ho => by simp only [hr o ho]
    · exact .stay hn (.error err) fun o ho => by simp only [hr o ho]

/-- Each operation, on a path inside. -/
theorem uniform_serve (hn : Enclosure n) {request : FileRequest}
    (hinside : request.IsInside e.root) :
    e.Uniform fun o => serve { root := some e.root } request (o.fill n) := by
  have replied {α : Type} {f : Around → Except LinkError α × Disk} (reply : α → FileReply)
      (hf : e.Uniform f) : e.Uniform fun o => FileService.replied reply (f o) :=
    hf.map fun out => out.map reply
  have hpath := hinside.imp_right And.right
  -- a path that is only searched on the way, so that what it ends in may be taken away
  have honward (hremoves : request.removes = true) :
      ∃ p ∈ (Path.ofText request.path).parts, p ≠ .here :=
    hinside.resolve_right fun hkept => by simp [hremoves] at hkept
  cases request with
  | write path contents mode =>
    refine replied _ ?_
    simp only [service, write]
    refine uniform_onPath hn hpath fun parts text hp _ => ?_
    exact (Entrance.Uniform.single hn (steady_write hn hp contents)).andThen
      (g := fun _ d => d.single (d.setMode text mode))
      fun m hm => .single hm (steady_setMode hm hp mode)
  | read path =>
    refine replied _ ?_
    simp only [service, read]
    refine uniform_onPath hn hpath fun parts text hp _ => ?_
    obtain ⟨r, hr⟩ := read_alike hn hp
    exact .stay hn r fun o ho => by simp only [hr o ho]
  | delete path =>
    refine replied _ ?_
    simp only [service, delete]
    exact uniform_onPath hn hpath fun parts text hp hleads =>
      .single hn (steady_unlink hn hp (hleads (honward rfl)))
  | removeAll path =>
    refine replied _ ?_
    simp only [service, removeAll]
    exact uniform_onPath hn hpath fun parts text hp hleads =>
      uniform_removeAll hn hp (hleads (honward rfl))
  | «exists» path => exact replied _ (uniform_isThere hn hpath)
  | chown path uid gid =>
    refine replied _ ?_
    simp only [service, chown]
    exact uniform_onPath hn hpath fun parts text hp _ =>
      .single hn (steady_setOwner hn hp uid gid)
  | chmodAll path mode =>
    refine replied _ ?_
    simp only [service, chmodAll]
    exact uniform_onPath hn hpath fun parts text hp _ => uniform_setModeAll hn hp mode
  | mkdirAll path mode =>
    refine replied _ ?_
    simp only [service, mkdirAll]
    exact uniform_onPath hn hpath fun parts text hp _ => uniform_makeAll hn hp mode

/-! ## Runs -/

/-- The answers to requests that are served one after the other, and the disk afterwards. -/
def serveAll (l : LocalFiles) :
    List FileRequest → Disk → List (Except LinkError FileReply) × Disk
  | [], d => ([], d)
  | request :: requests, d =>
    let (reply, d) := l.serve request d
    let (replies, d) := serveAll l requests d
    (reply :: replies, d)

/-- Where no link in the root leads out, requests inside are answered the same wherever the root
stands, and leave everything around it as it was. -/
theorem rooted_runs_stay_inside (hn : Enclosure n) {requests : List FileRequest}
    (hinside : ∀ request ∈ requests, request.IsInside e.root) :
    e.Uniform fun o => serveAll { root := some e.root } requests (o.fill n) := by
  induction requests generalizing n with
  | nil => exact .stay hn [] fun o _ => rfl
  | cons request requests ih =>
    obtain ⟨reply, m, hm, hfirst⟩ := uniform_serve hn (hinside request List.mem_cons_self)
    obtain ⟨replies, last, hlast, hrest⟩ :=
      ih hm fun other hother => hinside other (List.mem_cons_of_mem _ hother)
    exact .stay hlast (reply :: replies) fun o ho => by
      simp only [serveAll, hfirst o ho, hrest o ho]

/-- Where no link in the root leads out, a request inside is answered the same on any two disks that
agree on the root. It leaves them agreeing on the root, and nothing around the root changes. -/
theorem rooted_requests_stay_inside (hn : Enclosure n) {request : FileRequest}
    (hinside : request.IsInside e.root) {o o' : Around} (ho : o.Leads e) (ho' : o'.Leads e) :
    ∃ reply m, Enclosure m ∧
      serve { root := some e.root } request (o.fill n) = (reply, o.fill m) ∧
      serve { root := some e.root } request (o'.fill n) = (reply, o'.fill m) ∧
      ∀ q, ¬ o.place <+: q → ¬ q <+: o.place → (o.fill m).get? q = (o.fill n).get? q := by
  obtain ⟨reply, m, hm, hall⟩ := uniform_serve hn hinside
  exact ⟨reply, m, hm, hall o ho, hall o' ho', fun q => o.get?_fill_outside n m⟩

/-! ## A root in the working directory -/

/-- A disk with a directory `data` in the working directory, and with others beside it. -/
def shelf (data : Node) (others : List (String × Node)) : Disk where
  root := .directory { mode := 0o755 }
    [("srv", .directory { mode := 0o755 } (("data", data) :: others))]
  directory := ["srv"]

/-- What is around the directory `data`. -/
def aroundData (others : List (String × Node)) : Around where
  disk := shelf (.directory { mode := 0o755 } []) others
  place := ["srv", "data"]
  stands := rfl

def dataEntrance : Entrance := { root := "data", left := maxLinks, process := {} }

theorem origin_data (others : List (String × Node)) :
    (aroundData others).origin dataEntrance.root = ["srv"] := by
  rw [Around.origin, show (Path.ofText dataEntrance.root).absolute = false by decide]
  rfl

theorem aroundData_leads (others : List (String × Node)) :
    (aroundData others).Leads dataEntrance := by
  refine Around.leads_of_names ["data"] rfl rfl (by decide)
    (by rw [origin_data]; rfl) fun before name after heq => ?_
  cases before with
  | nil =>
    cases heq
    rw [origin_data]
    refine ⟨?_, by decide⟩
    simp [aroundData, shelf, node, get?, Node.get?, Node.child?, Node.entries, check,
      Node.attributes?, Process.allows, Process.bitsFor, Access.bit, bind, Except.bind]
  | cons x before => simp at heq

/-- Notes, and a link to the latest. -/
def notes : Node :=
  .directory { mode := 0o755 }
    [("monday", .file { mode := 0o644 } [0x68, 0x69]), ("latest", .link "monday")]

theorem enclosure_notes : Enclosure notes where
  confined := by
    refine .directory (fun x hx => ?_) fun x hx => ?_ <;>
      rcases List.mem_cons.1 hx with rfl | hx
    · decide
    · obtain rfl := List.mem_singleton.1 hx
      decide
    · exact .file
    · obtain rfl := List.mem_singleton.1 hx
      exact .link (by decide) (by decide) (by decide)
  directory := rfl

theorem latest_is_read_inside :
    ∃ reply m, Enclosure m ∧
      serve { root := some "data" } (.read "latest") ((aroundData []).fill notes) =
        (reply, (aroundData []).fill m) ∧
      serve { root := some "data" } (.read "latest") ((aroundData [("latest", notes)]).fill notes) =
        (reply, (aroundData [("latest", notes)]).fill m) ∧
      ∀ q, ¬ ["srv", "data"] <+: q → ¬ q <+: ["srv", "data"] →
        ((aroundData []).fill m).get? q = ((aroundData []).fill notes).get? q :=
  have inside : FileRequest.IsInside (.read "latest") "data" :=
    .inl ⟨.name "latest", by decide, by decide⟩
  rooted_requests_stay_inside (e := dataEntrance) enclosure_notes inside (aroundData_leads [])
    (aroundData_leads [("latest", notes)])

/-! ## A link that leads up -/

/-- A directory with a link to the directory above. -/
def holed : Node := .directory { mode := 0o755 } [("out", .link "..")]

theorem resolve_out : resolve { root := some "data" } "out/notes" = .ok "data/out/notes" := by
  have hroot : "data".endsWith "/" = false := by cbv
  have hpath : "out/notes".startsWith "/" = false := by cbv
  rw [resolve, if_neg (by decide)]
  simp [hpath, Path.join, Path.inside, hroot]

/-- The path comes to an end in the directory above the root. -/
theorem start_out (others : List (String × Node)) :
    (shelf holed others).start "data/out/notes" =
      .ok ⟨["srv"], some (.name "notes"), false, 39⟩ := by
  have htext : Path.ofText "data/out/notes" =
      ⟨false, [.name "data", .name "out", .name "notes"], false⟩ := by decide
  have hup : Path.ofText ".." = ⟨false, [.up], false⟩ := by decide
  have hdata : ¬ maxName < "data".utf8ByteSize := by decide
  have hout : ¬ maxName < "out".utf8ByteSize := by decide
  rw [start, if_neg (by decide), if_neg (by decide), htext]
  simp [shelf, holed, lastStep, node, child, get?, Node.get?, Node.child?, Node.entries, check,
    Node.attributes?, Process.allows, Process.bitsFor, Access.bit, bind, Except.bind, pure,
    Except.pure, Except.map, maxLinks, hup, hdata, hout]

theorem child_out (others : List (String × Node)) :
    (shelf holed others).child ["srv"] "notes" = .ok (others.lookup "notes") := by
  have hnotes : ¬ maxName < "notes".utf8ByteSize := by decide
  rw [child, if_neg hnotes]
  simp [shelf, node, get?, Node.get?, Node.child?, Node.entries, Except.map, List.lookup_cons]

/-- Through a link that leads up, a request makes a directory beside the root, and another one sees
what is there. -/
theorem link_leads_out_of_root :
    (serve { root := some "data" } (.exists "out/notes") (shelf holed [])).1 =
        .ok (.found false) ∧
      serve { root := some "data" } (.mkdirAll "out/notes" 0o755) (shelf holed []) =
        (.ok .done, shelf holed [("notes", .directory { mode := 0o755 } [])]) ∧
      (serve { root := some "data" } (.exists "out/notes")
        (shelf holed [("notes", .directory { mode := 0o755 } [])])).1 = .ok (.found true) := by
  refine ⟨?_, ?_, ?_⟩
  · simp [serve, FileService.perform, service, isThere, onPath, resolve_out, checkText, stat, find,
      start_out, arrive, child_out, bind, Except.bind, FileService.replied, Except.mapError,
      Except.map]
  · have hmade : (shelf holed []).makeDirectory "data/out/notes" 0o755 =
        .ok (shelf holed [("notes", .directory { mode := 0o755 } [])]) := by
      rw [makeDirectory, start_out]
      simp only [bind, Except.bind, child_out]
      simp [shelf, checkEntries, node, get?, Node.get?, Node.child?, Node.entries, check,
        Node.attributes?, Process.allows, Process.bitsFor, Access.bit, Process.madeIn, hasBits,
        withoutBits, groupBit, put, Disk.alter, Node.alter, Node.setEntry, List.lookup_cons, bind,
        Except.bind, pure, Except.pure]
    simp [serve, FileService.perform, service, mkdirAll, onPath, resolve_out, checkText, makeAll,
      makeDirectories, hmade, FileService.replied, Except.mapError, Except.map]
  · have hnode : (shelf holed [("notes", .directory { mode := 0o755 } [])]).node ["srv", "notes"] =
        .ok (.directory { mode := 0o755 } []) := by
      simp [shelf, node, get?, Node.get?, Node.child?, Node.entries, List.lookup_cons]
    simp [serve, FileService.perform, service, isThere, onPath, resolve_out, checkText, stat, find,
      start_out, arrive, child_out, checkSlash, hnode, bind, Except.bind, FileService.replied,
      Except.mapError, Except.map]

end LocalFiles

end ServerLink
