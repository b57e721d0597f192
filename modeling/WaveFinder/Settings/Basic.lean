import WaveFinder.Address
import WaveFinder.Settings.EnvFile
import WaveFinder.Settings.Toml.Reader
import WaveFinder.Settings.VariableValue
import WaveFinder.Zone.Basic

/-!
# Settings/Basic — the settings of the program and where they come from

    defaults ◂── TOML file ◂── environment ◂── .env (only what the environment leaves unset)

Each layer is a tree and is laid over the ones before it, so a setting has the value of the topmost
layer that names it.  The tree is then read as `Settings`, and `validate` looks at what the values
say.
-/

namespace WaveFinder

open Text

/-- How the program logs. -/
structure Logging where
  /-- `text` or `json`. -/
  format : String
  /-- The level that is used when none is asked for. -/
  level : String
  /-- Directives for libraries. -/
  dependencies : Option String
  deriving DecidableEq, Repr

/-- The settings of the program. -/
structure Settings where
  /-- The domain of names without one. -/
  localDomain : String
  /-- The zone of dates. -/
  timeZone : String
  /-- The query that is used when none is given. -/
  defaultQuery : String
  /-- How the program logs. -/
  logging : Logging
  deriving DecidableEq, Repr

/-- Why there are no settings, or none that can be used. -/
inductive SettingsFault where
  /-- A source cannot be read, or a setting has a value of another type. -/
  | unreadable
  /-- The local domain is empty. -/
  | missingDomain
  /-- The local domain is no domain. -/
  | invalidDomain (domain : String)
  /-- The zone is no zone. -/
  | invalidZone (error : ZoneError)
  /-- The format of the log is unknown. -/
  | invalidFormat (format : String)
  deriving DecidableEq, Repr

namespace SettingsFault

/-- The wording of a fault. -/
def message : SettingsFault → String
  | unreadable => "Failed to load configuration"
  | missingDomain => "Missing required configuration: Local domain is required"
  | invalidDomain domain =>
    "Invalid configuration value: local_domain '" ++ domain ++ "' is not a valid domain"
  | invalidZone error => "Invalid configuration value: " ++ error.message
  | invalidFormat format =>
    "Invalid configuration value: logging.format must be 'text' or 'json', got '" ++ format ++ "'"

end SettingsFault

namespace Settings

/-- The settings that hold when nothing is set. -/
def standard : Settings where
  localDomain := "example.com"
  timeZone := "utc"
  defaultQuery := "in:inbox"
  logging := { format := "text", level := "warn", dependencies := some "rayon=warn" }

/-! ## Trees of settings -/

/-- The settings as a tree. -/
def toTree (s : Settings) : Tree :=
  .table [
    ("local_domain", .text s.localDomain),
    ("time_zone", .text s.timeZone),
    ("default_query", .text s.defaultQuery),
    ("logging", .table (
      [("format", .text s.logging.format), ("default_level", .text s.logging.level)]
        ++ s.logging.dependencies.toList.map fun d => ("dependency_filter", .text d)))]

/-- The text of a value that has to be there. -/
def textOf? : Option Tree → Option String
  | some (.text s) => some s
  | _ => none

/-- Reads how the program logs, from named values or from the values in their order, after which
others may follow. -/
def loggingOfTree? : Tree → Option Logging
  | .table es => do
    return {
      format := ← textOf? (Tree.valueOf? "format" es)
      level := ← textOf? (Tree.valueOf? "default_level" es)
      dependencies := ← match Tree.valueOf? "dependency_filter" es with
        | none => some none
        | some (.text s) => some (some s)
        | some _ => none }
  | .list (.text format :: .text level :: .text dependencies :: _) =>
    some { format, level, dependencies := some dependencies }
  | _ => none

/-- Reads settings; names without meaning are ignored. -/
def ofTree? : Tree → Option Settings
  | .table es => do
    return {
      localDomain := ← textOf? (Tree.valueOf? "local_domain" es)
      timeZone := ← textOf? (Tree.valueOf? "time_zone" es)
      defaultQuery := ← textOf? (Tree.valueOf? "default_query" es)
      logging := ← (Tree.valueOf? "logging" es).bind loggingOfTree? }
  | _ => none

/-! ## Sources -/

/-- What the names of the variables begin with, in letters of either case. -/
def variableStart : String := "WAVE_SEARCH_"

/-- The variable that names the file. -/
def fileVariable : String := "WAVE_SEARCH_CONFIG"

/-- Cuts a name at every two underscores. -/
def splitLevels : List Char → List (List Char)
  | '_' :: '_' :: cs => [] :: splitLevels cs
  | c :: cs =>
    match splitLevels cs with
    | [] => [[c]]
    | l :: ls => (c :: l) :: ls
  | [] => [[]]

/-- The path of the setting that a variable sets, if it sets one: what follows the common start, in
small letters, with two underscores or a full stop between levels.  Blanks around the name, and
around what follows the start, do not count. -/
def pathOfVariable? (name : String) : Option (List String) :=
  let cs := (trim isBlank name.toList).map Char.toLower
  let start := variableStart.toList.map Char.toLower
  if cs.take start.length ≠ start then none
  else
    let setting := trim isBlank (cs.drop start.length)
    let path := ((splitLevels setting).flatMap (pieces (· == '.'))).map String.ofList
    if path.any String.isEmpty ∨ path = ["config"] then none else some path

/-- The settings that the variables of an environment make. -/
def treeOfEnvironment (env : Environment) : Tree :=
  env.foldl
    (fun t v =>
      match pathOfVariable? v.1 with
      | some path => (Tree.ofPath path (VariableValue.read v.2)).overlay t
      | none => t)
    (.table [])

/-- What a path of the file system leads to. -/
inductive FileEntry where
  /-- No file: nothing at all, or a directory. -/
  | absent
  /-- A file that cannot be read as text. -/
  | unreadable
  /-- A text file. -/
  | text (content : String)

/-- The files that a program sees, by path. -/
abbrev Files := String → FileEntry

/-- The environment together with the definitions of `.env`. -/
def fullEnvironment (env : Environment) (files : Files) : Environment :=
  match files ".env" with
  | .text content => EnvFile.apply env content
  | _ => env

/-- The settings that the file makes; a file that is not there makes none. -/
def treeOfFile? (env : Environment) (files : Files) : Option Tree :=
  match env.get? fileVariable with
  | none => some (.table [])
  | some path =>
    match files path with
    | .absent => some (.table [])
    | .unreadable => none
    | .text content => Toml.read? content

/-- Reads the settings. -/
def load (env : Environment) (files : Files) : Except SettingsFault Settings :=
  let env := fullEnvironment env files
  match treeOfFile? env files with
  | none => .error .unreadable
  | some file =>
    match ofTree? ((treeOfEnvironment env).overlay (file.overlay standard.toTree)) with
    | some s => .ok s
    | none => .error .unreadable

/-! ## Validation -/

/-- The zone of dates. -/
def zone (s : Settings) : Except SettingsFault Zone :=
  (Zone.parse s.timeZone).mapError .invalidZone

/-- Looks for the first fault of the values. -/
def validate (s : Settings) : Except SettingsFault Unit := do
  if s.localDomain.isEmpty then throw .missingDomain
  if !Domain.isValid (lower s.localDomain.toList) then throw (.invalidDomain s.localDomain)
  let _ ← s.zone
  if s.logging.format ≠ "text" ∧ s.logging.format ≠ "json" then
    throw (.invalidFormat s.logging.format)

end Settings

end WaveFinder
