import Mathlib
import ServerLink.Proofs.Text.Lines
import ServerLink.Secret

/-!
# What secrets depend on

A setting that refers to a password or to a file stands for the first line of what is there
(`secrets_are_first_lines`). Of what a password command prints nothing after that line counts. A
file, however, has to be a text as a whole: where it is none only behind its first line
(`Spoilt`), that line is lost.
-/

namespace ServerLink

/-- A path leads to a file that may be read and has these contents. -/
structure Disk.HasBytes (d : Disk) (path : String) (bytes : List UInt8) : Prop where
  /-- It is a path that a disk can have. -/
  sayable : checkText path = .ok ()
  read : d.read path = .ok bytes

namespace Host

/-- An environment variable has this value. No variable has a name that is empty or holds an equals
sign. -/
structure Sets (h : Host) (name value : String) : Prop where
  found : h.environment.lookup name = some value
  named : name ≠ ""
  plain : '=' ∉ name.toList

/-- The password command succeeds for an entry and prints these bytes. -/
structure Prints (h : Host) (entry : String) (out : List UInt8) : Prop where
  intro ::
  /-- It is an entry that a command can be asked for. -/
  sayable : '\x00' ∉ entry.toList
  asked : ∃ ask, h.passwords = some ask ∧ (ask entry).status = .code 0 ∧ (ask entry).stdout = out

end Host

namespace Secret

/-- What a line comes to: the line without the blanks at its end, if it is not blank. -/
def ofLine (source line : String) : Except SecretError String :=
  if Text.allBlank line then .error (.empty source) else .ok (Text.trimEnd line)

/-- Bytes that are no text. -/
def noText : IoError := .invalidData "stream did not contain valid UTF-8"

/-- What the bytes of a file's first line come to. -/
def ofFileLine (path : String) (line : List UInt8) : Except SecretError String :=
  match Text.decode? line with
  | some line => ofLine ("`" ++ path ++ "`") line
  | none => .error (.file path noText)

/-- The first line is a text, but with what follows it the bytes are none. -/
def Spoilt (bytes : List UInt8) : Prop :=
  (Text.decode? (Text.firstLine bytes)).isSome ∧ Text.decode? bytes = none

/-- A text that can be a first line, which has something on it and no blanks at its end. -/
structure IsLine (secret : String) : Prop where
  nonempty : secret ≠ ""
  unbroken : '\n' ∉ secret.toList
  trimmed : ∀ c, secret.toList.getLast? = some c → Text.isBlank c = false

/-! ## Blanks at the end -/

theorem trimEnd_eq_empty {line : String} : Text.trimEnd line = "" ↔ Text.allBlank line = true := by
  have empty : Text.trimEndChars line.toList = [] ↔ ∀ c ∈ line.toList, Text.isBlank c = true :=
    List.rdropWhile_eq_nil_iff
  rw [Text.trimEnd, String.ofList_eq_empty_iff, empty, Text.allBlank, String.all_bool_eq,
    List.all_eq_true]

theorem isLine_of_ofLine {source line secret : String} (hl : '\n' ∉ line.toList)
    (h : ofLine source line = .ok secret) : IsLine secret := by
  unfold ofLine at h
  split at h
  · cases h
  · rename_i hblank
    cases h
    refine ⟨fun he => hblank (trimEnd_eq_empty.mp he), fun hmem => hl ?_, fun c hc => ?_⟩
    · rw [Text.trimEnd, String.toList_ofList] at hmem
      exact (List.rdropWhile_prefix Text.isBlank line.toList).subset hmem
    · rw [Text.trimEnd, String.toList_ofList] at hc
      obtain ⟨hne, rfl⟩ := List.mem_getLast?_eq_getLast hc
      exact Bool.not_eq_true _ ▸ List.rdropWhile_last_not Text.isBlank line.toList hne

/-- The first line of a text, read as a line. -/
theorem firstLine_eq {text line : String} (source : String)
    (h : text.toList.takeWhile (· ≠ '\n') = line.toList) :
    (match firstLine text with
      | some secret => .ok secret
      | none => .error (.empty source)) = ofLine source line := by
  have trimmed : firstLine text =
      if Text.trimEnd line = "" then none else some (Text.trimEnd line) := by
    rw [firstLine, h, Text.trimEnd]
    split <;> simp_all
  rw [trimmed, ofLine]
  simp only [trimEnd_eq_empty]
  split <;> simp_all

/-! ## References -/

theorem startsWith_iff {beginning setting : String} :
    setting.startsWith beginning = true ↔ ∃ rest, setting = beginning ++ rest := by
  rw [String.startsWith_string_iff]
  constructor
  · rintro ⟨rest, hrest⟩
    refine ⟨String.ofList rest, ?_⟩
    rw [← String.toList_inj, String.toList_append, String.toList_ofList, hrest]
  · rintro ⟨rest, rfl⟩
    rw [String.toList_append]
    exact List.prefix_append _ _

theorem after?_append (beginning rest : String) :
    after? beginning (beginning ++ rest) = some rest := by
  rw [after?, if_pos (startsWith_iff.mpr ⟨rest, rfl⟩), String.toList_append, ← String.length_toList,
    List.drop_left, String.ofList_toList]

theorem after?_eq_none {beginning setting : String} :
    after? beginning setting = none ↔ ¬ ∃ rest, setting = beginning ++ rest := by
  rw [← startsWith_iff, after?]
  split <;> simp_all

/-- No reference begins as another does. -/
theorem no_other_beginning {p q : String} (hp : p.toList.head? ≠ q.toList.head?) (hne : p ≠ "")
    (hqne : q ≠ "") (rest : String) : ¬ ∃ other, p ++ rest = q ++ other := by
  rintro ⟨other, h⟩
  refine hp ?_
  have heads := congrArg (fun s => s.toList.head?) h
  simp only [String.toList_append] at heads
  rwa [List.head?_append_of_ne_nil _ (by simpa using hne),
    List.head?_append_of_ne_nil _ (by simpa using hqne)] at heads

theorem source_store (entry : String) : source ("pass::" ++ entry) = .store entry := by
  rw [source, after?_append]

theorem source_variable (name : String) : source ("env::" ++ name) = .variable name := by
  have noStore : after? "pass::" ("env::" ++ name) = none :=
    after?_eq_none.mpr (no_other_beginning (by decide) (by decide) (by decide) name)
  rw [source, noStore, after?_append]

theorem source_file (path : String) : source ("file::" ++ path) = .file path := by
  have noStore : after? "pass::" ("file::" ++ path) = none :=
    after?_eq_none.mpr (no_other_beginning (by decide) (by decide) (by decide) path)
  have noVariable : after? "env::" ("file::" ++ path) = none :=
    after?_eq_none.mpr (no_other_beginning (by decide) (by decide) (by decide) path)
  rw [source, noStore, noVariable, after?_append]

/-- A setting is a reference if it begins as one. -/
theorem isReference_eq_false {setting : String} : isReference setting = false ↔
    ∀ beginning ∈ ["pass::", "env::", "file::"], ¬ ∃ rest, setting = beginning ++ rest := by
  simp only [isReference, List.any_eq_false, startsWith_iff]

theorem source_literal {setting : String} (h : isReference setting = false) :
    source setting = .literal setting := by
  rw [isReference_eq_false] at h
  have noStore := after?_eq_none.mpr (h "pass::" (by simp))
  have noVariable := after?_eq_none.mpr (h "env::" (by simp))
  have noFile := after?_eq_none.mpr (h "file::" (by simp))
  rw [source, noStore, noVariable, noFile]

/-! ## What references stand for -/

variable {h : Host} {name value entry path secret : String} {out bytes : List UInt8}

theorem ofVariable_eq_ok : ofVariable h name = .ok value ↔ h.Sets name value := by
  unfold ofVariable
  constructor
  · intro hok
    split at hok
    · rename_i v hv
      split at hok
      · cases hok
      · rename_i plain
        cases hok
        simp only [Bool.or_eq_true, not_or, Bool.not_eq_true, String.isEmpty_eq_false_iff] at plain
        refine ⟨hv, plain.1, ?_⟩
        have := plain.2
        simpa using this
    · cases hok
  · rintro ⟨found, named, plain⟩
    rw [found]
    simp [named, plain]

theorem ofVariable_eq_error {e : SecretError} (he : ofVariable h name = .error e) :
    e = .noVariable name := by
  unfold ofVariable at he
  repeat' split at he
  all_goals cases he <;> rfl

/-- The password command's output comes to its first line. -/
theorem resolve_store (hp : h.Prints entry out) : resolve h ("pass::" ++ entry) =
    ofLine ("`pass show " ++ entry ++ "`") (Text.decodeLossy (Text.firstLine out)) := by
  obtain ⟨ask, hask, hstatus, rfl⟩ := hp.asked
  have sayable : entry.contains '\x00' = false := by simpa using hp.sayable
  rw [resolve, source_store]
  simp only [ofStore, sayable, Bool.false_eq_true, if_false, hask, ofOutput, hstatus, if_true]
  exact firstLine_eq _ (Text.takeWhile_decodeLossy _)

theorem readText_eq (hb : h.disk.HasBytes path bytes) : h.disk.readText path =
    match Text.decode? bytes with
    | some text => .ok text
    | none => .error noText := by
  rw [Disk.readText, hb.sayable, hb.read]
  rfl

/-- A file that is a text comes to its first line. -/
theorem resolve_file {text : String} (hb : h.disk.HasBytes path bytes)
    (ht : Text.decode? bytes = some text) :
    resolve h ("file::" ++ path) = ofFileLine path (Text.firstLine bytes) := by
  obtain ⟨line, hline, htext⟩ := Text.decode?_firstLine ht
  rw [resolve, source_file, ofFileLine, hline]
  simp only [ofFile, readText_eq hb, ht]
  exact firstLine_eq _ htext

/-- A file that is no text comes to nothing. -/
theorem resolve_file_error (hb : h.disk.HasBytes path bytes) (ht : Text.decode? bytes = none) :
    resolve h ("file::" ++ path) = .error (.file path noText) := by
  rw [resolve, source_file]
  simp only [ofFile, readText_eq hb, ht]

theorem ofLine_ne_file (source line : String) :
    ofLine source line ≠ .error (.file path noText) := by
  unfold ofLine
  split <;> simp

/-- A password is found only where the password command prints something. -/
theorem prints_of_resolve (hok : resolve h ("pass::" ++ entry) = .ok secret) :
    ∃ out, h.Prints entry out := by
  rw [resolve, source_store] at hok
  simp only [ofStore] at hok
  split at hok
  · cases hok
  · rename_i sayable
    split at hok
    · cases hok
    · rename_i ask hask
      unfold ofOutput at hok
      split at hok
      · rename_i hstatus
        exact ⟨_, by simpa using sayable, ask, hask, hstatus, rfl⟩
      · cases hok

/-- A file is found only where it may be read, and is a text. -/
theorem hasBytes_of_resolve (hok : resolve h ("file::" ++ path) = .ok secret) :
    ∃ bytes text, h.disk.HasBytes path bytes ∧ Text.decode? bytes = some text := by
  rw [resolve, source_file] at hok
  simp only [ofFile] at hok
  split at hok
  · cases hok
  · rename_i text htext
    cases hsay : Disk.checkText path with
    | error e => rw [Disk.readText, hsay] at htext; cases htext
    | ok =>
      cases hread : h.disk.read path with
      | error e => rw [Disk.readText, hsay, hread] at htext; cases htext
      | ok bytes =>
        have hb : h.disk.HasBytes path bytes := ⟨hsay, hread⟩
        rw [readText_eq hb] at htext
        split at htext
        · rename_i text' ht
          exact ⟨bytes, text', hb, ht⟩
        · cases htext

theorem newline_not_mem_decodeLossy (bs : List UInt8) :
    '\n' ∉ (Text.decodeLossy (Text.firstLine bs)).toList := by
  rw [← Text.takeWhile_decodeLossy]
  intro hmem
  simpa using List.mem_takeWhile_imp hmem

/-- What is found by a password or a file is a line. -/
theorem isLine_of_resolve (hok : resolve h ("pass::" ++ entry) = .ok secret ∨
    resolve h ("file::" ++ entry) = .ok secret) : IsLine secret := by
  rcases hok with hok | hok
  · obtain ⟨out, hp⟩ := prints_of_resolve hok
    rw [resolve_store hp] at hok
    exact isLine_of_ofLine (newline_not_mem_decodeLossy out) hok
  · obtain ⟨bytes, text, hb, ht⟩ := hasBytes_of_resolve hok
    obtain ⟨line, hline, -⟩ := Text.decode?_firstLine ht
    rw [resolve_file hb ht, ofFileLine, hline] at hok
    refine isLine_of_ofLine ?_ hok
    rw [← Text.decodeLossy_of_decode? hline]
    exact newline_not_mem_decodeLossy bytes

/-! ## The first line and the rest -/

theorem resolve_spoilt (hb : h.disk.HasBytes path bytes) (hs : Spoilt bytes) :
    resolve h ("file::" ++ path) = .error (.file path noText) := resolve_file_error hb hs.2

theorem resolve_unspoilt (hb : h.disk.HasBytes path bytes) (hs : ¬ Spoilt bytes) :
    resolve h ("file::" ++ path) = ofFileLine path (Text.firstLine bytes) := by
  cases ht : Text.decode? bytes with
  | some text => exact resolve_file hb ht
  | none =>
    have hline : Text.decode? (Text.firstLine bytes) = none := by
      simpa [Spoilt, ht] using hs
    rw [resolve_file_error hb ht, ofFileLine, hline]

/-- A line that is a text comes to something else than a file that is none. -/
theorem ofFileLine_ne_noText (hs : Spoilt bytes) :
    ofFileLine path (Text.firstLine bytes) ≠ .error (.file path noText) := by
  obtain ⟨line, hline⟩ := Option.isSome_iff_exists.mp hs.1
  rw [ofFileLine, hline]
  exact ofLine_ne_file _ _

theorem resolve_file_iff (hb : h.disk.HasBytes path bytes) :
    resolve h ("file::" ++ path) = ofFileLine path (Text.firstLine bytes) ↔ ¬ Spoilt bytes := by
  refine ⟨fun he hs => ofFileLine_ne_noText hs (he.symm.trans (resolve_spoilt hb hs)),
    resolve_unspoilt hb⟩

/-- Two files with one first line come to the same if both are spoilt behind it or neither is. -/
theorem resolve_file_eq_iff {h' : Host} {bytes' : List UInt8} (hb : h.disk.HasBytes path bytes)
    (hb' : h'.disk.HasBytes path bytes') (hline : Text.firstLine bytes' = Text.firstLine bytes) :
    resolve h' ("file::" ++ path) = resolve h ("file::" ++ path) ↔
      (Spoilt bytes' ↔ Spoilt bytes) := by
  by_cases hs : Spoilt bytes <;> by_cases hs' : Spoilt bytes'
  · simp [resolve_spoilt hb hs, resolve_spoilt hb' hs', hs, hs']
  · have hne : ofFileLine path (Text.firstLine bytes) ≠ .error (.file path noText) :=
      ofFileLine_ne_noText hs
    rw [resolve_spoilt hb hs, resolve_unspoilt hb' hs', hline]
    simp [hs, hs', hne]
  · have hne : ofFileLine path (Text.firstLine bytes') ≠ .error (.file path noText) :=
      ofFileLine_ne_noText hs'
    rw [hline] at hne
    rw [resolve_unspoilt hb hs, resolve_spoilt hb' hs']
    simp [hs, hs', hne.symm]
  · simp [resolve_unspoilt hb hs, resolve_unspoilt hb' hs', hline, hs, hs']

/-- **A secret is the first line of its source.** A setting that is no reference, as it begins as
none, stands for itself, and one that names an environment variable for its value as it is. What a
password command prints comes to its first line without the blanks at its end, or to nothing if that
is blank, whatever it prints after it. So does a file, unless it is spoilt behind a first line that
is a text: then it comes to an error instead, and for this alone do two files with the same first
line come to different things. What is found either way has no line break, and no blanks at its
end. -/
theorem secrets_are_first_lines (h : Host) :
    (∀ setting, isReference setting = false ↔
      ∀ beginning ∈ ["pass::", "env::", "file::"], ¬ ∃ rest, setting = beginning ++ rest) ∧
    (∀ setting, isReference setting = false → resolve h setting = .ok setting) ∧
    (∀ name, (∀ value, resolve h ("env::" ++ name) = .ok value ↔ h.Sets name value) ∧
      ((¬ ∃ value, h.Sets name value) → resolve h ("env::" ++ name) = .error (.noVariable name))) ∧
    (∀ entry out, h.Prints entry out →
      resolve h ("pass::" ++ entry) = ofLine ("`pass show " ++ entry ++ "`")
        (Text.decodeLossy (Text.firstLine out)) ∧
      ∀ h' out', Host.Prints h' entry out' → Text.firstLine out' = Text.firstLine out →
        resolve h' ("pass::" ++ entry) = resolve h ("pass::" ++ entry)) ∧
    (∀ path bytes, h.disk.HasBytes path bytes →
      (resolve h ("file::" ++ path) = ofFileLine path (Text.firstLine bytes) ↔ ¬ Spoilt bytes) ∧
      (Spoilt bytes → resolve h ("file::" ++ path) = .error (.file path noText)) ∧
      ∀ (h' : Host) bytes', h'.disk.HasBytes path bytes' →
        Text.firstLine bytes' = Text.firstLine bytes →
        (resolve h' ("file::" ++ path) = resolve h ("file::" ++ path) ↔
          (Spoilt bytes' ↔ Spoilt bytes))) ∧
    ∀ rest secret, resolve h ("pass::" ++ rest) = .ok secret ∨
      resolve h ("file::" ++ rest) = .ok secret → IsLine secret := by
  refine ⟨fun _ => isReference_eq_false, fun setting hno => ?literal, fun name => ?fromVariable,
    fun entry out hp => ⟨resolve_store hp, fun h' out' hp' hline => ?output⟩,
    fun path bytes hb => ⟨resolve_file_iff hb, resolve_spoilt hb,
      fun h' bytes' hb' hline => resolve_file_eq_iff hb hb' hline⟩,
    fun _ _ hok => isLine_of_resolve hok⟩
  case literal => rw [resolve, source_literal hno]
  case fromVariable =>
    have hresolve : resolve h ("env::" ++ name) = ofVariable h name := by
      rw [resolve, source_variable]
    rw [hresolve]
    refine ⟨fun value => ofVariable_eq_ok, fun hno => ?_⟩
    cases hv : ofVariable h name with
    | ok value => exact absurd ⟨value, ofVariable_eq_ok.mp hv⟩ hno
    | error e => rw [ofVariable_eq_error hv]
  case output => rw [resolve_store hp, resolve_store hp', hline]

/-- A machine with a file of these bytes. -/
def hostWithKey (bytes : List UInt8) : Host where
  disk.root := .directory { mode := 0o755 } [("key", .file { mode := 0o644 } bytes)]

/-- A key, a carriage return and a line break, and a line after it. -/
def keyAndMore : List UInt8 := [0x6B, 0x0D, 0x0A, 0x41]

theorem key_before_more_is_found :
    (hostWithKey keyAndMore).disk.HasBytes "key" keyAndMore ∧ ¬ Spoilt keyAndMore ∧
      resolve (hostWithKey keyAndMore) "file::key" = .ok "k" := by
  have hb : (hostWithKey keyAndMore).disk.HasBytes "key" keyAndMore := ⟨by cbv, by cbv⟩
  have hs : ¬ Spoilt keyAndMore := by
    have text : Text.decode? keyAndMore = some "k\r\nA" := by cbv
    simp [Spoilt, text]
  have found := ((secrets_are_first_lines (hostWithKey keyAndMore)).2.2.2.2.1 "key" _ hb).1.mpr hs
  exact ⟨hb, hs, found.trans (by cbv)⟩

/-- A key and a line break. -/
def keyAlone : List UInt8 := [0x6B, 0x0A]

/-- The same and a byte of no text. -/
def keyAndNoText : List UInt8 := [0x6B, 0x0A, 0xFF]

theorem key_before_no_text_is_lost :
    (hostWithKey keyAlone).disk.HasBytes "key" keyAlone ∧
      (hostWithKey keyAndNoText).disk.HasBytes "key" keyAndNoText ∧
      Text.firstLine keyAndNoText = Text.firstLine keyAlone ∧
      resolve (hostWithKey keyAlone) "file::key" = .ok "k" ∧
      resolve (hostWithKey keyAndNoText) "file::key" = .error (.file "key" noText) :=
  ⟨⟨by cbv, by cbv⟩, ⟨by cbv, by cbv⟩, by decide, by cbv, by cbv⟩

end Secret

end ServerLink
