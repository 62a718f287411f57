import ServerLink.Settings.Basic
import ServerLink.Toml.Printer
import ServerLink.Toml.Reader

/-!
# Settings as text

Settings are written as a TOML document with a line for each of them that is there, in which a
printer writes the strings. Reading takes the default for one that is not, and ignores what is no
setting.
-/

namespace ServerLink.Settings

/-- The lowest integer that TOML cannot write. -/
def integerBound : Nat := 2 ^ 63

/-- An integer as TOML writes it, if it can. -/
def writeInteger (n : Nat) : Except SettingsError String :=
  if n < integerBound then .ok (toString n) else .error .unwritable

def writeBoolean (b : Bool) : String := if b then "true" else "false"

/-- A string as a printer writes it. -/
def writeText (print : Toml.StringPrinter) (text : String) : Except SettingsError String :=
  (print text).mapError .unprinted

/-- The lines of a document: the name of each setting and its value as text. Numbers are looked at
before texts. -/
def lines (print : Toml.StringPrinter) (s : Settings) :
    Except SettingsError (List (String × String)) := do
  let ping ← writeInteger s.pingInterval
  let request ← writeInteger s.requestTimeout
  let connect ← writeInteger s.connectTimeout
  let capacity ← writeInteger s.capacity
  let host ← writeText print s.host
  let path ← writeText print s.path
  let username ← s.username.mapM (writeText print)
  let apiKey ← s.apiKey.mapM (writeText print)
  let route ← writeText print s.route.name
  let optional (name : String) (value : Option String) : List (String × String) :=
    (value.map fun v => (name, v)).toList
  return [("host", host)] ++
    optional "port" (s.port.map toString) ++
    [("path", path), ("use_tls", writeBoolean s.useTls)] ++
    optional "username" username ++
    optional "api_key" apiKey ++
    [("ping_interval_secs", ping), ("request_timeout_secs", request),
      ("connect_timeout_secs", connect), ("subscription_capacity", capacity),
      ("insecure_skip_verify", writeBoolean s.insecure), ("transport", route)]

/-- The text of the settings. -/
def toText (print : Toml.StringPrinter) (s : Settings) : Except SettingsError String :=
  (s.lines print).map fun ls => String.join (ls.map fun l => Toml.writeEntry l.1 l.2)

/-- A setting read from a table, or its default if the table does not have it. -/
def fromTable {α : Type} (t : List (String × Toml)) (name : String) (absent : α)
    (read : Toml → Option α) : Option α :=
  match t.lookup name with
  | some v => read v
  | none => some absent

/-- A route is named, or is the only key of a table, with nothing under it. -/
def readRoute : Toml → Option Route
  | .string s => Route.ofName? s
  | .table [(name, .table [])] | .table [(name, .array [])] => Route.ofName? name
  | _ => none

/-- The settings in a table. -/
def ofTable? (t : List (String × Toml)) : Option Settings := do
  let standard : Settings := {}
  let integer := Toml.natBelow? (2 ^ 64)
  return {
    host := ← fromTable t "host" standard.host Toml.string?
    port := ← fromTable t "port" none fun v => (Toml.natBelow? (2 ^ 16) v).map some
    path := ← fromTable t "path" standard.path Toml.string?
    useTls := ← fromTable t "use_tls" standard.useTls Toml.boolean?
    username := ← fromTable t "username" none fun v => v.string?.map some
    apiKey := ← fromTable t "api_key" none fun v => v.string?.map some
    pingInterval := ← fromTable t "ping_interval_secs" standard.pingInterval integer
    requestTimeout := ← fromTable t "request_timeout_secs" standard.requestTimeout integer
    connectTimeout := ← fromTable t "connect_timeout_secs" standard.connectTimeout integer
    capacity := ← fromTable t "subscription_capacity" standard.capacity integer
    insecure := ← fromTable t "insecure_skip_verify" standard.insecure Toml.boolean?
    route := ← fromTable t "transport" standard.route readRoute }

/-- The settings in a text. -/
def ofText (text : String) : Except SettingsError Settings :=
  match Toml.read? text >>= ofTable? with
  | some s => .ok s
  | none => .error .malformed

/-- The settings in a file. -/
def load (h : Host) (path : String) : Except SettingsError Settings := do
  ofText (← (h.disk.readText path).mapError (.unreadable path))

/-- Where the home directory is for an account without one. -/
def homeWithoutVariable : String := "/root"

/-- The directory for settings of all programs. -/
def directory (h : Host) : String :=
  match h.environment.lookup "XDG_CONFIG_HOME" with
  | some dir => if dir.startsWith "/" then dir else fromHome
  | none => fromHome
where
  /-- The one below the home directory. -/
  fromHome : String :=
    let home := (h.environment.lookup "HOME").getD ""
    Path.join (if home.isEmpty then homeWithoutVariable else home) ".config"

/-- Where the settings are if nothing else is said. -/
def defaultPath (h : Host) : String :=
  Path.join (Path.join (directory h) "mwrpc") "config.toml"

/-- The settings at the default path, or the defaults if nothing is there. -/
def loadDefault (h : Host) : Except SettingsError Settings :=
  match h.disk.stat true (defaultPath h) with
  | .ok _ => load h (defaultPath h)
  | .error _ => .ok {}

end ServerLink.Settings
