import WaveFinder.Command.Arguments
import WaveFinder.Command.Help
import WaveFinder.Query.Form

/-!
# Command/Basic — the commands of the program

`parse` shows what a query means, `search` runs one over a file of waves, and `build` makes one from
the fields of a form.  `Command.ofArguments?` reads a command line; `none` is a fault of usage.
-/

namespace WaveFinder

open Text

/-- A command of the program. -/
inductive Command where
  /-- Prints the version. -/
  | version
  /-- Prints help. -/
  | help (topic : Topic)
  /-- Shows what a query means. -/
  | parse (words : List String)
  /-- Runs a query over a file of waves. -/
  | search (file : String) (limit : Option Nat) (words : List String)
  /-- Makes a query from a form. -/
  | build (form : Form)
  deriving DecidableEq

namespace Command

/-- A count of results: a numeral that fits an unsigned 64-bit word. -/
def count? (s : String) : Option Nat :=
  let digits :=
    match s.toList with
    | '+' :: cs => cs
    | cs => cs
  (Numeral.toNat? digits).filter fun n => n < 18446744073709551616

/-- A day as it may be given. -/
def day? (s : String) : Option Date :=
  Date.ofLoose? s.toList

/-- What `parse` takes. -/
def parseGrammar : Grammar where
  flags := []
  takesWords := true

/-- What `search` takes. -/
def searchGrammar : Grammar where
  flags := [
    { long := "records", short := some 'r', accepts := fun s => !s.isEmpty },
    { long := "limit", accepts := fun s => (count? s).isSome }]
  takesWords := true

/-- What `build` takes. -/
def buildGrammar : Grammar where
  flags := [
    { long := "scope", accepts := fun s => (Folder.ofToken? s).isSome },
    { long := "creator", isRepeatable := true },
    { long := "with", isRepeatable := true },
    { long := "created-from", accepts := fun s => (day? s).isSome },
    { long := "created-to", accepts := fun s => (day? s).isSome },
    { long := "modified-from", accepts := fun s => (day? s).isSome },
    { long := "modified-to", accepts := fun s => (day? s).isSome },
    { long := "orderby", isRepeatable := true, accepts := fun s => (SortKey.ofToken? s).isSome }]
  takesWords := false

/-- The `search` command of its arguments, which have to name a file. -/
def searchOf? (a : Arguments) : Option Command :=
  (a.valueOf? "records").map fun file => .search file ((a.valueOf? "limit").bind count?) a.words

/-- A period whose ends are given by two options. -/
def periodOf (a : Arguments) (first last : String) : Period where
  first := (a.valueOf? first).bind day?
  last := (a.valueOf? last).bind day?

/-- The `build` command of its arguments. -/
def buildOf (a : Arguments) : Command :=
  let folder := (a.valueOf? "scope").bind Folder.ofToken?
  let entries :=
    [.folder (folder.getD .inbox), .created (periodOf a "created-from" "created-to"),
      .modified (periodOf a "modified-from" "modified-to")]
      ++ (a.valuesOf "creator").map Form.Entry.creators
      ++ (a.valuesOf "with").map Form.Entry.people
      ++ ((a.valuesOf "orderby").filterMap SortKey.ofToken?).map Form.Entry.order
  .build (Form.ofEntries entries)

/-- The command that arguments stand for, or the help that they ask for. -/
def withHelp? (topic : Topic) (command? : Arguments → Option Command) (a : Arguments) :
    Option Command :=
  if a.wantsHelp then some (.help topic) else command? a

/-- The command of a command line. -/
def ofArguments? : List String → Option Command
  | [] => none
  | name :: args =>
    match Topic.ofName? name with
    | some .parse =>
      (parseGrammar.arguments? args).bind (withHelp? .parse fun a => some (.parse a.words))
    | some .search => (searchGrammar.arguments? args).bind (withHelp? .search searchOf?)
    | some .build => (buildGrammar.arguments? args).bind (withHelp? .build (some ∘ buildOf))
    | some .help =>
      match args with
      | [] => some (.help .program)
      | [name] => (Topic.ofName? name).map .help
      | _ => none
    | _ =>
      match Grammar.look name with
      | .long "version" none => some .version
      | .short 'V' _ => some .version
      | .long "help" none => some (.help .program)
      | .short 'h' _ => some (.help .program)
      | _ => none

end Command

end WaveFinder
