import Mathlib
import ServerLink.CommandLine.Execution
import ServerLink.Proofs.Text.Utf8
import ServerLink.Proofs.Toml.Lines

/-!
# Settings that are written and read

Settings are written with a line for each of them that is there, and what is written is read as the
same settings (`dumped_settings_load_back`): from a file with the text alone, and from one with
everything that the command for it prints.
-/

namespace ServerLink

namespace Disk

/-- A path leads to a file that may be read and that holds a text. -/
structure HasText (d : Disk) (path text : String) : Prop where
  /-- It is a path that a disk can have. -/
  sayable : checkText path = .ok ()
  read : d.read path = .ok (Text.bytesOf text)

theorem HasText.readText {d : Disk} {path text : String} (h : d.HasText path text) :
    d.readText path = .ok text := by
  rw [Disk.readText, h.sayable, h.read]
  simp only [Except.mapError, bind, Except.bind, Text.decode?_bytesOf]

end Disk

namespace Settings

open Toml (Written WrittenLines IsBare linesText)

variable {s : Settings} {print : Toml.StringPrinter}

/-! ## What is written -/

/-- A number of seconds or events that TOML cannot write. -/
def TooLarge (s : Settings) : Prop :=
  ∃ n ∈ [s.pingInterval, s.requestTimeout, s.connectTimeout, s.capacity], integerBound ≤ n

/-- The strings that are written for settings. -/
def strings (s : Settings) : List String :=
  [s.host, s.path] ++ s.username.toList ++ s.apiKey.toList ++ [s.route.name]

/-- The table that the settings are written as. -/
def table (s : Settings) : List (String × Toml) :=
  [("host", .string s.host)] ++
    (s.port.map fun (p : Nat) => ("port", Toml.integer p)).toList ++
    [("path", .string s.path), ("use_tls", .boolean s.useTls)] ++
    (s.username.map fun u => ("username", Toml.string u)).toList ++
    (s.apiKey.map fun k => ("api_key", Toml.string k)).toList ++
    [("ping_interval_secs", .integer s.pingInterval),
      ("request_timeout_secs", .integer s.requestTimeout),
      ("connect_timeout_secs", .integer s.connectTimeout),
      ("subscription_capacity", .integer s.capacity),
      ("insecure_skip_verify", .boolean s.insecure),
      ("transport", .string s.route.name)]

theorem writeInteger_ok {n : Nat} (h : n < integerBound) : writeInteger n = .ok (toString n) :=
  if_pos h

/-- Without a printer's having been asked for anything, a number that is too large is refused. -/
theorem lines_of_tooLarge (h : s.TooLarge) : s.lines print = .error .unwritable := by
  simp only [TooLarge, List.mem_cons, List.not_mem_nil, or_false, exists_eq_or_imp,
    exists_eq_left] at h
  unfold lines writeInteger
  split <;> split <;> split <;> split <;> first | rfl | omega

theorem exists_writeText {text : String} (h : Toml.Prints print text) :
    ∃ written, writeText print text = .ok written ∧ Written written (.string text) := by
  obtain ⟨written, hw, stands⟩ := h
  exact ⟨written, by rw [writeText, hw]; rfl, Toml.written_string stands⟩

/-- The line of a string that may not be there. -/
theorem exists_writeOptional {x : Option String} (key : String) (hk : IsBare key)
    (h : ∀ text ∈ x, Toml.Prints print text) :
    ∃ written, x.mapM (writeText print) = .ok written ∧
      WrittenLines (written.map fun t => (key, t)).toList
        (x.map fun text => (key, Toml.string text)).toList := by
  cases x with
  | none => exact ⟨none, rfl, .nil⟩
  | some text =>
    obtain ⟨written, hw, stands⟩ := exists_writeText (h text rfl)
    exact ⟨some written, by simp [hw], .single hk stands⟩

/-- No setting is written twice. -/
theorem nodup_table (s : Settings) : (s.table.map Prod.fst).Nodup := by
  obtain ⟨host, port, path, useTls, username, apiKey, _, _, _, _, _, _⟩ := s
  cases port <;> cases username <;> cases apiKey <;> simp [table]

/-- Where the printer writes the strings, what is written are lines for the table of the settings. -/
theorem lines_written (hp : ∀ p, s.port = some p → p < 2 ^ 16) (h : ¬ s.TooLarge)
    (prints : ∀ text ∈ s.strings, Toml.Prints print text) :
    ∃ ls, s.lines print = .ok ls ∧ WrittenLines ls s.table := by
  have small : ∀ n ∈ [s.pingInterval, s.requestTimeout, s.connectTimeout, s.capacity],
      n < integerBound := fun n hn => Nat.lt_of_not_le fun large => h ⟨n, hn, large⟩
  have ping := small s.pingInterval (by simp)
  have request := small s.requestTimeout (by simp)
  have connect := small s.connectTimeout (by simp)
  have capacity := small s.capacity (by simp)
  obtain ⟨host, hhost, host_stands⟩ := exists_writeText (prints s.host (by simp [strings]))
  obtain ⟨path, hpath, path_stands⟩ := exists_writeText (prints s.path (by simp [strings]))
  obtain ⟨username, husername, username_stands⟩ :=
    exists_writeOptional "username" (by decide) fun u (hu : u ∈ s.username) =>
      prints u (by simp [strings, Option.mem_toList.2 hu])
  obtain ⟨apiKey, hapiKey, apiKey_stands⟩ :=
    exists_writeOptional "api_key" (by decide) fun k (hk : k ∈ s.apiKey) =>
      prints k (by simp [strings, Option.mem_toList.2 hk])
  obtain ⟨route, hroute, route_stands⟩ := exists_writeText (prints s.route.name (by simp [strings]))
  simp only [lines, writeInteger_ok ping, writeInteger_ok request, writeInteger_ok connect,
    writeInteger_ok capacity, hhost, hpath, husername, hapiKey, hroute]
  refine ⟨_, rfl, ?_⟩
  refine .append (.append (.append (.append (.append ?host ?port) ?path) username_stands)
    apiKey_stands) ?others
  case host => exact .single (by decide) host_stands
  case port =>
    refine .optional ?_ fun p h => ?_
    · decide
    · exact Toml.written_integer (Nat.lt_trans (hp p h) (by decide))
  case path =>
    exact .cons (by decide) path_stands (.single (by decide) (Toml.written_boolean _))
  case others =>
    exact .cons (by decide) (Toml.written_integer ping)
      (.cons (by decide) (Toml.written_integer request)
      (.cons (by decide) (Toml.written_integer connect)
      (.cons (by decide) (Toml.written_integer capacity)
      (.cons (by decide) (Toml.written_boolean _)
      (.single (by decide) route_stands)))))

/-- The settings in the table that they are written as. -/
theorem ofTable?_table (hp : ∀ p, s.port = some p → p < 2 ^ 16) (h : ¬ s.TooLarge) :
    ofTable? s.table = some s := by
  have small : ∀ n ∈ [s.pingInterval, s.requestTimeout, s.connectTimeout, s.capacity],
      Toml.natBelow? (2 ^ 64) (.integer n) = some n := by
    intro n hn
    have : n < 2 ^ 63 := Nat.lt_of_not_le fun large => h ⟨n, hn, large⟩
    rw [Toml.natBelow?, if_pos (by omega), Int.toNat_natCast]
  have route : readRoute (.string s.route.name) = some s.route := by
    cases s.route <;> decide
  have portFits : ∀ p, s.port = some p → Toml.natBelow? (2 ^ 16) (.integer p) = some p := by
    intro p h
    have := hp p h
    rw [Toml.natBelow?, if_pos (by omega), Int.toNat_natCast]
  have ping := small s.pingInterval (by simp)
  have request := small s.requestTimeout (by simp)
  have connect := small s.connectTimeout (by simp)
  have capacity := small s.capacity (by simp)
  clear small hp h
  obtain ⟨host, port, path, useTls, username, apiKey, _, _, _, _, _, _⟩ := s
  cases port <;> cases username <;> cases apiKey <;>
    simp_all [table, ofTable?, fromTable, List.lookup, Toml.string?, Toml.boolean?]

theorem toText_of_tooLarge (h : s.TooLarge) : s.toText print = .error .unwritable := by
  rw [toText, lines_of_tooLarge h]
  rfl

theorem toText_eq_lines (hp : ∀ p, s.port = some p → p < 2 ^ 16) (small : ¬ s.TooLarge)
    (prints : ∀ text ∈ s.strings, Toml.Prints print text) :
    ∃ ls, s.toText print = .ok (linesText ls) ∧ WrittenLines ls s.table := by
  obtain ⟨ls, hl, hw⟩ := lines_written hp small prints
  exact ⟨ls, by rw [toText, hl]; rfl, hw⟩

/-! ## What is read -/

theorem ofText_of_table {text : String} (hp : ∀ p, s.port = some p → p < 2 ^ 16)
    (small : ¬ s.TooLarge) (h : Toml.read? text = some s.table) : ofText text = .ok s := by
  rw [ofText, h, Option.bind_eq_bind, Option.bind_some, ofTable?_table hp small]

theorem load_of_hasText {h : Host} {path text : String} (holds : h.disk.HasText path text) :
    load h path = ofText text := by
  rw [load, holds.readText]
  rfl

/-- What the command for the settings prints. -/
theorem dumpSettings_ok {text : String} (h : Host) (ht : s.toText print = .ok text) :
    CommandLine.dumpSettings print h s {} = (.ok (),
      { text := "#" ++ (" config.toml (" ++ defaultPath h ++ ")") ++ "\n" ++ text ++ "\n" }) := by
  rw [CommandLine.dumpSettings, ht]
  simp [CommandLine.put, Output.writeAll, Output.write, Except.mapError, String.ext_iff]

/-- **Settings are read as they were written**, by any printer that writes each of their strings as
a basic or literal one, on one line or over several. Writing fails if and only if a number is too
large. Otherwise a file with the text of the settings has the same settings, and so has one with
everything that the command for them prints, as long as the default path, which it prints in a
comment, has no control characters. -/
theorem dumped_settings_load_back (print : Toml.StringPrinter) (s : Settings)
    (hp : ∀ p, s.port = some p → p < 2 ^ 16)
    (prints : ∀ text ∈ s.strings, Toml.Prints print text) :
    ((∃ e, s.toText print = .error e) ↔ s.TooLarge) ∧
    (s.TooLarge → s.toText print = .error .unwritable) ∧
    (¬ s.TooLarge →
      ∃ text, s.toText print = .ok text ∧
        (∀ (h : Host) path, h.disk.HasText path text → load h path = .ok s) ∧
        ∀ h : Host, (∀ c ∈ (defaultPath h).toList, ' ' ≤ c ∧ c ≠ '\x7f') →
          ∃ out, CommandLine.dumpSettings print h s {} = (.ok (), out) ∧
            ∀ (h' : Host) path, h'.disk.HasText path out.text → load h' path = .ok s) := by
  by_cases large : s.TooLarge
  · simp [toText_of_tooLarge large, large]
  obtain ⟨ls, text, written⟩ := toText_eq_lines hp large prints
  refine ⟨by simp [text, large], fun h => absurd h large, fun _ => ⟨_, text, ?alone, ?printed⟩⟩
  case alone =>
    intro h path holds
    rw [load_of_hasText holds]
    exact ofText_of_table hp large (Toml.read?_lines written s.nodup_table)
  case printed =>
    intro h printable
    refine ⟨_, dumpSettings_ok h text, fun h' path holds => ?_⟩
    rw [load_of_hasText holds]
    refine ofText_of_table hp large (Toml.read?_commented written s.nodup_table fun c hc => ?_)
    simp only [String.toList_append, List.mem_append, or_assoc] at hc
    rcases hc with hc | hc | hc
    · exact List.all_eq_true.mp (by decide) c hc
    · have := printable c hc
      simp [Toml.isComment, this]
    · obtain rfl := List.mem_singleton.mp hc
      decide

/-- Settings whose texts need every form of string. -/
def awkward : Settings where
  host := "'\"\\\n\x0d\x07\x7fä"
  port := some 0
  path := ""
  username := some "'\"\"' \\"
  apiKey := some "'\n\"\"\""
  pingInterval := 2 ^ 63 - 1
  requestTimeout := 0
  insecure := true
  route := .unsupported

/-- A machine with a text in a file. -/
def hostWith (text : String) : Host where
  disk.root := .directory { mode := 0o755 }
    [("config.toml", .file { mode := 0o644 } (Text.bytesOf text))]

theorem hostWith_hasText (text : String) : (hostWith text).disk.HasText "config.toml" text where
  sayable := by simp [Disk.checkText]
  read := by
    have path : Path.ofText "config.toml" = ⟨false, [.name "config.toml"], false⟩ := by decide
    have name : ¬ Disk.maxName < "config.toml".utf8ByteSize := by decide
    have start : (hostWith text).disk.start "config.toml" =
        .ok ⟨[], some (.name "config.toml"), false, Disk.maxLinks⟩ := by
      rw [Disk.start, if_neg (by decide), if_neg (by decide), path]
      simp [hostWith, Disk.lastStep, Disk.node, Disk.get?, Node.get?, Disk.check, Node.attributes?,
        Process.allows, Process.bitsFor, Access.bit, bind, Except.bind, pure, Except.pure]
    rw [Disk.read, Disk.stat, Disk.find, start]
    simp [Disk.arrive, Disk.child, name, hostWith, Disk.node, Disk.get?, Node.get?, Node.child?,
      Node.entries, Disk.checkSlash, Disk.check, Node.attributes?, Process.allows, Process.bitsFor,
      Access.bit, bind, Except.bind, Except.map]

theorem awkward_loads_back :
    (∀ text ∈ awkward.strings, Toml.Prints Toml.printString text) ∧
    ∃ text, awkward.toText Toml.printString = .ok text ∧
      load (hostWith text) "config.toml" = .ok awkward :=
  have small : ¬ awkward.TooLarge := by
    rintro ⟨n, hn, large⟩
    simp only [awkward, List.mem_cons, List.not_mem_nil, or_false] at hn
    unfold integerBound at large
    omega
  have short : (awkward.strings.all fun text =>
      ['"', '\''].all fun quote => Toml.longestRun quote text.toList < 256) = true := by decide
  have prints : ∀ text ∈ awkward.strings, Toml.Prints Toml.printString text := fun text ht =>
    Toml.printString_prints (List.all_eq_true.1 short text ht)
  have ⟨text, written, loads, _⟩ :=
    (dumped_settings_load_back Toml.printString awkward (by decide) prints).2.2 small
  ⟨prints, text, written, loads (hostWith text) "config.toml" (hostWith_hasText text)⟩

end Settings

end ServerLink
