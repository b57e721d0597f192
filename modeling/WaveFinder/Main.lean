import WaveFinder.Command.Run

/-!
# Main — the program

The outermost layer: it gathers the environment and the files that a run may look at, and prints
what the run comes to.
-/

namespace WaveFinder

/-- What a path leads to. -/
def readEntry (path : String) : IO Settings.FileEntry := do
  try
    return .text (← IO.FS.readFile path)
  catch
    | .noFileOrDirectory .. => return .absent
    | .inappropriateType .. => return .absent
    | _ => return .unreadable

/-- The variables of the process. -/
def readEnvironment : IO Environment := do
  try
    let text ← IO.FS.readFile "/proc/self/environ"
    return (Text.pieces (· == '\x00') text.toList).filterMap fun entry =>
      match entry.dropWhile (· != '=') with
      | _ :: value => some (String.ofList (entry.takeWhile (· != '=')), String.ofList value)
      | [] => none
  catch _ => return []

/-- The paths that a run may look at, besides `.env`. -/
def pathsOf (env : Environment) (args : List String) : List String :=
  let records :=
    match Command.ofArguments? args with
    | some (.search file ..) => [file]
    | _ => []
  (env.get? Settings.fileVariable).toList ++ records

/-- Runs the program on the command line. -/
def runMain (args : List String) : IO UInt32 := do
  let env ← readEnvironment
  let dotEnv ← readEntry ".env"
  let only : Settings.Files := fun path => if path = ".env" then dotEnv else .absent
  let paths := pathsOf (Settings.fullEnvironment env only) args
  let entries ← paths.mapM fun path => return (path, ← readEntry path)
  let files : Settings.Files := fun path =>
    match entries.find? fun e => e.1 == path with
    | some e => e.2
    | none => only path
  let rule := (env.get? "TZ").bind fun tz => PosixRule.ofText? tz.toList
  let hostClock := (rule.map PosixRule.clock).getD Clock.utc
  let outcome := Command.run { environment := env, files, hostClock } args
  IO.print outcome.output
  unless outcome.complaint.isEmpty do
    IO.eprintln outcome.complaint
  return outcome.exit.toUInt32

end WaveFinder

/-- The entry point of the program. -/
def main (args : List String) : IO UInt32 :=
  WaveFinder.runMain args
