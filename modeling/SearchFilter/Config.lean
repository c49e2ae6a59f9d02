import SearchFilter.Filter.Reader
import SearchFilter.Json.Basic
import SearchFilter.Toml.Reader

/-! # Configuration

The configuration file is a TOML document with a version, a base filter to be joined onto parsed
filters, and output preferences.  All keys may be missing, and unknown keys do not matter. -/

namespace SearchFilter

/-! ### Values -/

/-- Output preferences; what is missing is left to the program. -/
structure Preferences where
  color : Option Bool
  json : Option Bool
  deriving DecidableEq, Repr

structure Config where
  version : Nat
  baseFilter : Option Filter
  output : Preferences

namespace Config

/-- The newest version that can be read. -/
def currentVersion : Nat := 1

/-- The configuration that holds where there is no file. -/
def standard : Config := ⟨currentVersion, none, ⟨none, none⟩⟩

instance : Inhabited Config := ⟨standard⟩

/-- What a new configuration file contains. -/
def template : Text :=
  [ "# ldapfilter - LDAP search filter tool configuration",
    "",
    "# Config schema version (do not modify)",
    "version = 1",
    "",
    "# Filter AND-ed onto every parsed filter (omit to leave filters untouched)",
    "# base_filter = \"(objectClass=person)\"",
    "",
    "# Output preferences",
    "[output]",
    "# color = true              # Enable colors (respects NO_COLOR env)",
    "# json = false              # Always print JSON" ].flatMap fun (line : String) =>
      (line : Text) ++ ['\n']

end Config

/-- Why there is no usable configuration. -/
inductive ConfigError where
  /-- No path for the file can be found. -/
  | noPath
  /-- The file cannot be read. -/
  | unreadable
  /-- The file is no TOML document, or a value in it is of the wrong kind. -/
  | malformed
  /-- The file has a newer version. -/
  | tooNew (version : Nat)
  /-- The folder for a new file cannot be created. -/
  | noFolder
  /-- A new file cannot be written. -/
  | notWritten
  deriving DecidableEq, Repr

def ConfigError.message : ConfigError → Text
  | noPath => "Could not determine config directory"
  | unreadable => "Failed to read config"
  | malformed => "Failed to parse config"
  | tooNew version =>
    "config version " ++ Text.ofNat version ++ " is newer than supported version " ++
      Text.ofNat Config.currentVersion
  | noFolder => "Failed to create config directory"
  | notWritten => "Failed to create config file"

namespace Config

/-! ### Reading

Each of these takes what the file has at a key and fails if that is of the wrong kind. -/

/-- A version is an unsigned number of 32 bits. -/
def version? : Option Toml.Value → Option Nat
  | none => some currentVersion
  | some (.integer n) => if 0 ≤ n ∧ n.toNat < Nat.pow 2 32 then some n.toNat else none
  | some _ => none

/-- A base filter is a string that can be parsed. -/
def baseFilter? : Option Toml.Value → Option (Option Filter)
  | none => some none
  | some (.string text) => (Filter.parse text).toOption.map some
  | some _ => none

/-- A preference is a truth value. -/
def preference? : Option Toml.Value → Option (Option Bool)
  | none => some none
  | some (.boolean value) => some (some value)
  | some _ => none

/-- The preferences in the entries of a table. -/
def preferencesIn? (entries : Toml.Entries) : Option Preferences := do
  let color ← preference? (entries.get? "color")
  let json ← preference? (entries.get? "json")
  return ⟨color, json⟩

/-- Preferences are a table.  An array with the two values in order is accepted too, and a date
counts as a table without any of the keys. -/
def preferences? : Option Toml.Value → Option Preferences
  | none | some .dateTime => some ⟨none, none⟩
  | some (.table _ entries) => preferencesIn? entries
  | some (.array (.boolean color :: .boolean json :: _)) => some ⟨some color, some json⟩
  | some _ => none

/-- The configuration in a TOML document, of whatever version. -/
def ofDocument? (document : Toml.Entries) : Option Config := do
  let version ← version? (document.get? "version")
  let baseFilter ← baseFilter? (document.get? "base_filter")
  let output ← preferences? (document.get? "output")
  return ⟨version, baseFilter, output⟩

/-- The configuration in the text of a file. -/
def read (text : Text) : Except ConfigError Config :=
  match (Toml.read text).bind ofDocument? with
  | none => .error .malformed
  | some config =>
    if currentVersion < config.version then .error (.tooNew config.version) else .ok config

/-! ### Views -/

/-- A member of a JSON object, unless its value is missing. -/
def member (key : Text) (value : Option Json) : List (Text × Json) :=
  (value.map fun value => (key, value)).toList

def preferencesJson (output : Preferences) : Json :=
  .object (member "color" (output.color.map .boolean) ++ member "json" (output.json.map .boolean))

def json (config : Config) : Json :=
  .object
    (member "base_filter" (config.baseFilter.map fun f => .string f.render) ++
      member "output" (preferencesJson config.output) ++
      member "version" (some (.number (.integer config.version))))

end Config
end SearchFilter
