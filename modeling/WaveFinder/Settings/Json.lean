import WaveFinder.Json.Shape
import WaveFinder.Settings.Basic

/-!
# Settings/Json — settings as JSON
-/

namespace WaveFinder

open Json

namespace Logging

/-- How the program logs, as a JSON object. -/
def toJson (l : Logging) : Json :=
  object [("format", ofString l.format), ("default_level", ofString l.level),
    ("dependency_filter", (l.dependencies.map ofString).getD .null)]

/-- Reads how the program logs.  In an object the directives may be missing. -/
def ofJson? (j : Json) : Option Logging := do
  match ← j.asFields? ["format", "default_level", "dependency_filter"] 3 with
  | [some format, some level, dependencies] =>
    return {
      format := ← format.asString?
      level := ← level.asString?
      dependencies := ← match dependencies with
        | none => some none
        | some .null => some none
        | some j => j.asString?.map some }
  | _ => none

end Logging

namespace Settings

/-- The settings as a JSON object. -/
def toJson (s : Settings) : Json :=
  object [("local_domain", ofString s.localDomain), ("time_zone", ofString s.timeZone),
    ("default_query", ofString s.defaultQuery), ("logging", s.logging.toJson)]

/-- Reads settings. -/
def ofJson? (j : Json) : Option Settings := do
  match ← j.asFields? ["local_domain", "time_zone", "default_query", "logging"] 4 with
  | [some localDomain, some timeZone, some defaultQuery, some logging] =>
    return {
      localDomain := ← localDomain.asString?
      timeZone := ← timeZone.asString?
      defaultQuery := ← defaultQuery.asString?
      logging := ← Logging.ofJson? logging }
  | _ => none

end Settings

end WaveFinder
