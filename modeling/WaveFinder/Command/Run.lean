import WaveFinder.Command.Basic
import WaveFinder.Query.Json
import WaveFinder.Search.Plan
import WaveFinder.Settings.Basic
import WaveFinder.Wave.Json

/-!
# Command/Run — what the program does

    arguments, environment, files ──run──▸ exit code, output

Settings come first, so a fault in them hides every other one; then the command line; then the
command itself.  A query and its addresses are looked at before the file of waves is.
-/

namespace WaveFinder

/-- The result of a run. -/
structure Outcome where
  /-- The exit code: 0, 1 for a fault of the input, 2 for a fault of usage. -/
  exit : Nat
  /-- What is printed. -/
  output : String
  /-- What is said about a fault. -/
  complaint : String := ""
  deriving DecidableEq, Repr

/-- What a program runs in. -/
structure Surroundings where
  /-- The variables. -/
  environment : Environment
  /-- The files. -/
  files : Settings.Files
  /-- The host's clock. -/
  hostClock : Clock

namespace Command

/-- The name and version of the program. -/
def versionText : String := "wave-search 2025.7.3"

/-- The text of the query that words make; without words it is the default query. -/
def queryText (s : Settings) (words : List String) : String :=
  if words.isEmpty then s.defaultQuery else " ".intercalate words

/-- What a query means, its keys in alphabetical order. -/
def report (clock : Clock) (zone : Zone) (text : String) : Except Refusal Json := do
  let q ← (Query.parse clock text).mapError .query
  let canonical ← (q.render clock).mapError .clock
  let params := q.entries.mergeSort fun a b => a.1.token ≤ b.1.token
  return Json.object [
    ("canonical", Json.ofString canonical),
    ("orderby", Json.ofStrings ((Ranking.ofQuery q).keys.map SortKey.token)),
    ("params", Json.object (params.map fun e => (e.1.token, Json.ofStrings e.2))),
    ("query", Json.ofString text),
    ("zone", Json.ofString zone.text)]

/-- The waves in a file. -/
def wavesIn? (files : Settings.Files) (path : String) : Option (List Wave) :=
  match files path with
  | .text content => (Json.read? content).bind Wave.listOfJson?
  | _ => none

/-- Carries a command out: what it prints, or what is wrong. -/
def execute (here : Surroundings) (s : Settings) : Command → Except String String
  | version => .ok (versionText ++ "\n")
  | help topic => .ok (topic.text ++ "\n")
  | parse words => do
    let zone ← s.zone.mapError SettingsFault.message
    let shown ← (report (zone.clock here.hostClock) zone (queryText s words)).mapError
      Refusal.message
    return shown.pretty ++ "\n"
  | search file limit words => do
    let zone ← s.zone.mapError SettingsFault.message
    let plan ← (Plan.ofText (zone.clock here.hostClock) s.localDomain (queryText s words)).mapError
      Refusal.message
    match wavesIn? here.files file with
    | none => .error ("Failed to read records from " ++ file)
    | some waves =>
      let ids := plan.ids waves
      return String.join (((limit.map ids.take).getD ids).map (· ++ "\n"))
  | build form => (form.query.map (· ++ "\n")).mapError QueryFault.message

/-- Runs the program. -/
def run (here : Surroundings) (args : List String) : Outcome :=
  match Settings.load here.environment here.files with
  | .error fault => ⟨1, "", fault.message⟩
  | .ok s =>
    match s.validate with
    | .error fault => ⟨1, "", fault.message⟩
    | .ok _ =>
      match ofArguments? args with
      | none => ⟨2, "", "usage: parse | search | build"⟩
      | some command =>
        match execute here s command with
        | .ok output => ⟨0, output, ""⟩
        | .error complaint => ⟨1, "", complaint⟩

end Command

end WaveFinder
