import ServerLink.Proofs.Files.Confinement

/-!
# Where a requested path leads

Paths are compared by their components (`Path.components`). What a service makes of a request's path
has the components of its root and then the names of the path, in their order
(`requests_resolve_below_root`): an absolute path does not leave the root, and slashes and parts `.`
in it say nothing. Nothing is refused but a path with a part `..`.
-/

namespace ServerLink

namespace Path

/-- A component of a path. -/
inductive Component where
  /-- Where absolute paths start. -/
  | root
  /-- Where relative paths start. -/
  | here
  /-- The directory above. -/
  | up
  | normal (name : String)
deriving DecidableEq, Repr

/-- The component between two slashes: nothing at all is none, and neither is `.`. -/
def Component.ofChars? (cs : List Char) : Option Component :=
  if cs = [] ∨ cs = ['.'] then none
  else if cs = ['.', '.'] then some .up
  else some (.normal (String.ofList cs))

/-- The components between the slashes of a text. -/
def between (cs : List Char) : List Component := (split cs).filterMap Component.ofChars?

/-- What starts a text: a slash that is its first character, or a part `.` that comes first. -/
def start? (cs : List Char) : Option Component :=
  if cs.head? = some '/' then some .root
  else if (split cs).head? = some ['.'] then some .here
  else none

/-- The components of a text. Slashes that are repeated or at the end make none, nor does a part `.`
that has something in front of it. -/
def components (text : String) : List Component :=
  (start? text.toList).toList ++ between text.toList

/-- The components without the part `.` that may start a text: two texts with the same ones lead to
the same place. -/
def denoted (text : String) : List Component := (components text).filter (· ≠ .here)

/-- The names in a text. -/
def normals (text : String) : List Component :=
  (components text).filter fun
    | .normal _ => true
    | .root | .here | .up => false

example : components "./a//..b/.c/./" = [.here, .normal "a", .normal "..b", .normal ".c"] := by
  decide

/-! ## Components and parts -/

/-- The component that a part of a path is, unless it is first. -/
def Part.component? : Part → Option Component
  | .here => none
  | .up => some .up
  | .name n => some (.normal n)

theorem component?_ofChars? (cs : List Char) :
    (Part.ofChars? cs).bind Part.component? = Component.ofChars? cs := by
  unfold Part.ofChars? Component.ofChars?
  by_cases hnil : cs = []
  · simp [hnil]
  by_cases hdot : cs = ['.']
  · simp [hdot, Part.component?]
  by_cases hdots : cs = ['.', '.']
  · simp [hdots, Part.component?]
  · simp [hnil, hdot, hdots, Part.component?]

theorem between_eq (cs : List Char) : between cs = (partsOf cs).filterMap Part.component? := by
  rw [between, partsOf, List.filterMap_filterMap]
  exact (List.filterMap_congr fun p _ => component?_ofChars? p).symm

/-- A path leads up if a part between its slashes is `..`. -/
theorem up_mem_parts (text : String) :
    .up ∈ (ofText text).parts ↔ ['.', '.'] ∈ split text.toList := by
  have hup : ∀ cs, Part.ofChars? cs = some .up ↔ cs = ['.', '.'] := by
    intro cs
    unfold Part.ofChars?
    by_cases hnil : cs = []
    · simp [hnil]
    by_cases hdot : cs = ['.']
    · simp [hdot]
    · simp [hnil, hdot]
  rw [parts_ofText, partsOf, List.mem_filterMap]
  simp only [hup, exists_eq_right]

/-- What starts a text is seen from where it starts and from its first part. -/
theorem start?_eq (cs : List Char) : start? cs =
    if cs.head? = some '/' then some .root
    else if (partsOf cs).head? = some .here then some .here
    else none := by
  unfold start?
  by_cases hroot : cs.head? = some '/'
  · rw [if_pos hroot, if_pos hroot]
  rw [if_neg hroot, if_neg hroot]
  cases cs with
  | nil => rfl
  | cons c cs =>
    have hc : c ≠ '/' := fun h => hroot (by rw [h]; rfl)
    obtain ⟨p, ps, -, hsplit⟩ := split_cons hc cs
    have hdot : (c :: p = ['.']) ↔ Part.ofChars? (c :: p) = some .here := by
      unfold Part.ofChars?
      by_cases hdot : c :: p = ['.']
      · simp [hdot]
      · simp only [List.cons_ne_nil, hdot, ↓reduceIte, false_iff]
        split <;> simp
    obtain ⟨q, hq⟩ : ∃ q, Part.ofChars? (c :: p) = some q := by
      unfold Part.ofChars?
      simp only [List.cons_ne_nil, ↓reduceIte]
      split
      · exact ⟨_, rfl⟩
      · split <;> exact ⟨_, rfl⟩
    have hfirst : (partsOf (c :: cs)).head? = Part.ofChars? (c :: p) := by
      rw [partsOf, hsplit, List.filterMap_cons_some hq, hq, List.head?_cons]
    simp only [hsplit, hfirst, List.head?_cons, Option.some.injEq, hdot]

theorem between_of_up_not_mem {cs : List Char} (h : .up ∉ partsOf cs) :
    ∀ c ∈ between cs, ∃ n, c = .normal n := by
  intro c hc
  rw [between_eq, List.mem_filterMap] at hc
  obtain ⟨p, hp, hpc⟩ := hc
  cases p with
  | here => cases hpc
  | up => exact absurd hp h
  | name n => exact ⟨n, (Option.some.inj hpc).symm⟩

/-- What starts a text is no name. -/
theorem normals_eq {text : String} (h : .up ∉ (ofText text).parts) :
    normals text = between text.toList := by
  have hstart : ∀ c ∈ (start? text.toList).toList, c = .root ∨ c = .here := by
    intro c hc
    unfold start? at hc
    split at hc
    · exact .inl (by simpa using hc)
    · split at hc
      · exact .inr (by simpa using hc)
      · cases hc
  rw [normals, components, List.filter_append, List.filter_eq_nil_iff.2 ?_, List.nil_append,
    List.filter_eq_self]
  · intro c hc
    obtain ⟨n, rfl⟩ := between_of_up_not_mem h c hc
    rfl
  · intro c hc
    rcases hstart c hc with rfl | rfl <;> simp

theorem denoted_eq (text : String) : denoted text =
    (if (ofText text).absolute then [.root] else []) ++ between text.toList := by
  have hbetween : ∀ c ∈ between text.toList, c ≠ .here := by
    rintro c hc rfl
    rw [between_eq, List.mem_filterMap] at hc
    obtain ⟨p, -, hp⟩ := hc
    cases p <;> cases hp
  have hstart : (start? text.toList).toList.filter (· ≠ .here) =
      if (ofText text).absolute then [.root] else [] := by
    simp only [start?, ofText, decide_eq_true_eq]
    split
    · rfl
    · split <;> rfl
  rw [denoted, components, List.filter_append, hstart]
  congr 1
  exact List.filter_eq_self.2 fun c hc => by simpa using hbetween c hc

/-! ## Paths inside a directory -/

section
variable {directory relative : String} (h : relative.toList.head? ≠ some '/')
include h

theorem denoted_inside : denoted (inside directory relative) =
    denoted directory ++ between relative.toList := by
  rw [denoted_eq, denoted_eq, absolute_inside h, between_eq, between_eq, between_eq,
    ← parts_ofText, ← parts_ofText, ← parts_ofText, parts_inside, List.filterMap_append,
    List.append_assoc]

/-- A path inside a directory starts as the directory's does, unless that has no text at all. -/
theorem components_inside (hdir : directory ≠ "") : components (inside directory relative) =
    components directory ++ between relative.toList := by
  have habsolute : ((inside directory relative).toList.head? = some '/') ↔
      directory.toList.head? = some '/' := by
    have hin : (ofText (inside directory relative)).absolute = (ofText directory).absolute :=
      absolute_inside h
    simpa [ofText] using hin
  have hparts : partsOf (inside directory relative).toList =
      partsOf directory.toList ++ partsOf relative.toList := parts_inside directory relative
  have hstart : start? (inside directory relative).toList = start? directory.toList := by
    simp only [start?_eq, habsolute]
    by_cases hroot : directory.toList.head? = some '/'
    · rw [if_pos hroot, if_pos hroot]
    · have hne : partsOf directory.toList ≠ [] := fun hnil =>
        hdir (by simpa using eq_nil_of_partsOf hnil hroot)
      rw [hparts, List.head?_append_of_ne_nil _ hne]
  rw [components, components, hstart, between_eq, hparts, List.filterMap_append, ← between_eq,
    ← between_eq, List.append_assoc]

end

end Path

namespace LocalFiles

variable {l : LocalFiles} {path text root : String}

/-- A path is refused if it leads up, and for no other reason. -/
theorem resolve_eq_error {e : IoError} : l.resolve path = .error e ↔
    ['.', '.'] ∈ Path.split path.toList ∧
      e = .invalidInput ("path escapes its root: " ++ path) := by
  have hleads : (Path.ofText path).leadsUp = true ↔ ['.', '.'] ∈ Path.split path.toList := by
    rw [← Path.up_mem_parts, Path.leadsUp, List.contains_iff_mem]
  unfold resolve
  by_cases hup : (Path.ofText path).leadsUp = true
  · rw [if_pos hup, ← hleads]
    simp [hup, eq_comm]
  · rw [if_neg hup, ← hleads]
    cases l.root with
    | none => simp [hup]
    | some root =>
      simp only [hup, Bool.false_eq_true, false_and, iff_false]
      split <;> simp

/-- The names of a path follow the components of the root. -/
theorem components_of_resolve (h : resolve { root := some root } path = .ok text) :
    Path.denoted text = Path.denoted root ++ Path.normals path ∧
      (root ≠ "" → Path.components text = Path.components root ++ Path.normals path) := by
  obtain ⟨relative, i, j, rfl, hhead, hparts, hup⟩ := resolve_rooted h
  have hsame : Path.between relative.toList = Path.normals path := by
    -- the parts that trimming takes away are no components
    have hdots : ∀ k, (List.replicate k Path.Part.here).filterMap Path.Part.component? = [] :=
      fun k => List.filterMap_eq_nil_iff.2 fun p hp => by rw [List.eq_of_mem_replicate hp]; rfl
    rw [Path.normals_eq hup, Path.between_eq, Path.between_eq, ← Path.parts_ofText,
      ← Path.parts_ofText, hparts, List.filterMap_append, List.filterMap_append, hdots, hdots,
      List.nil_append, List.append_nil]
  rw [← hsame]
  exact ⟨Path.denoted_inside hhead, Path.components_inside hhead⟩

/-- **Resolution.** A path is refused if and only if one of its parts between slashes is `..`, and
then as invalid input. Any other path stays as it is without a root. With a root it becomes a text
that leads where the root and then the names of the path do, in their order: the components of the
text are the root's and then these names, except that a root without any text has no component that
could start it. -/
theorem requests_resolve_below_root (l : LocalFiles) (path : String) :
    ((∃ e, l.resolve path = .error e) ↔ ['.', '.'] ∈ Path.split path.toList) ∧
      (∀ e, l.resolve path = .error e → e = .invalidInput ("path escapes its root: " ++ path)) ∧
      (['.', '.'] ∉ Path.split path.toList →
        (l.root = none → l.resolve path = .ok path) ∧
        ∀ root, l.root = some root → ∃ text, l.resolve path = .ok text ∧
          Path.denoted text = Path.denoted root ++ Path.normals path ∧
          (root ≠ "" → Path.components text = Path.components root ++ Path.normals path)) := by
  refine ⟨⟨fun ⟨e, he⟩ => (resolve_eq_error.1 he).1,
      fun hup => ⟨_, resolve_eq_error.2 ⟨hup, rfl⟩⟩⟩,
    fun e he => (resolve_eq_error.1 he).2, fun hdown => ?_⟩
  obtain ⟨text, htext⟩ : ∃ text, l.resolve path = .ok text := by
    cases hresolve : l.resolve path with
    | error e => exact absurd (resolve_eq_error.1 hresolve).1 hdown
    | ok text => exact ⟨text, rfl⟩
  refine ⟨fun hroot => ?_, fun root hroot => ⟨text, htext, ?_⟩⟩
  · unfold resolve at htext ⊢
    split at htext
    · cases htext
    · next hup => rw [if_neg hup, hroot]
  · obtain rfl : l = { root := some root } := by rw [← hroot]
    exact components_of_resolve htext

theorem absolute_request_resolves_below_root :
    ['.', '.'] ∉ Path.split "//etc/./passwd..//".toList ∧
      ∃ text, resolve { root := some "./data" } "//etc/./passwd..//" = .ok text ∧
        Path.components text =
          [.here, .normal "data", .normal "etc", .normal "passwd.."] := by
  have hdown : ['.', '.'] ∉ Path.split "//etc/./passwd..//".toList := by decide
  obtain ⟨text, htext, -, hcomponents⟩ :=
    ((requests_resolve_below_root { root := some "./data" } "//etc/./passwd..//").2.2 hdown).2
      "./data" rfl
  exact ⟨hdown, text, htext, (hcomponents (by decide)).trans (by decide)⟩

end LocalFiles

end ServerLink
