import WaveFinder.Json.Shape
import WaveFinder.Wave.Basic

/-!
# Wave/Json — waves as JSON

Waves come with the fields `id` and `wavelets`, wavelets with `id`, `creator`, `creation_time`,
`last_modified_time` and `participants`; the lists may be left out.  Every address is checked and
lower-cased on the way in, so what has been read is written in normal form.
-/

namespace WaveFinder

open Json

namespace Address

/-- The address as a JSON value. -/
def toJson (a : Address) : Json := ofString a.text

/-- Reads an address. -/
def ofJson? (j : Json) : Option Address :=
  j.asString?.bind fun s => (read s).toOption

end Address

namespace Wavelet

/-- The wavelet as a JSON object. -/
def toJson (w : Wavelet) : Json :=
  object [("id", ofString w.id), ("creator", w.creator.toJson), ("creation_time", .int w.created),
    ("last_modified_time", .int w.modified),
    ("participants", .list (w.participants.map Address.toJson))]

/-- Reads a wavelet. -/
def ofJson? (j : Json) : Option Wavelet := do
  match ← j.asFields? ["id", "creator", "creation_time", "last_modified_time", "participants"] 4
  with
  | [some id, some creator, some created, some modified, participants] =>
    return {
      id := ← id.asString?
      creator := ← Address.ofJson? creator
      created := ← created.asWord?
      modified := ← modified.asWord?
      participants := ← match participants with
        | some js => js.asList? Address.ofJson?
        | none => some [] }
  | _ => none

end Wavelet

namespace Wave

/-- The wave as a JSON object. -/
def toJson (w : Wave) : Json :=
  object [("id", ofString w.id), ("wavelets", .list (w.wavelets.map Wavelet.toJson))]

/-- Reads a wave. -/
def ofJson? (j : Json) : Option Wave := do
  match ← j.asFields? ["id", "wavelets"] 1 with
  | [some id, wavelets] =>
    return {
      id := ← id.asString?
      wavelets := ← match wavelets with
        | some js => js.asList? Wavelet.ofJson?
        | none => some [] }
  | _ => none

/-- Waves as a JSON array. -/
def listToJson (ws : List Wave) : Json := .list (ws.map toJson)

/-- Reads an array of waves. -/
def listOfJson? (j : Json) : Option (List Wave) := j.asList? ofJson?

end Wave

end WaveFinder
