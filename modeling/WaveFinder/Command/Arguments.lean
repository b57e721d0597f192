import WaveFinder.Text.Split

/-!
# Command/Arguments — options and words on a command line

A command has options, each of which takes one value, and perhaps words.  The first word ends the
options: everything after it is a word, whatever it looks like.  `--` ends the options without being
a word.  A command that is asked for help goes no further, but what stands before has to be right.
-/

namespace WaveFinder

/-- An option of a command; it takes one value. -/
structure Flag where
  /-- The name after `--`. -/
  long : String
  /-- The letter after `-`, if there is one. -/
  short : Option Char := none
  /-- Whether it may be given more than once. -/
  isRepeatable : Bool := false
  /-- Whether it takes a value. -/
  accepts : String → Bool := fun _ => true

/-- What a command takes. -/
structure Grammar where
  /-- The options. -/
  flags : List Flag
  /-- Whether it takes words. -/
  takesWords : Bool

/-- What a command is given. -/
structure Arguments where
  /-- The options by their long names, with their values, in order. -/
  given : List (String × String) := []
  /-- The words. -/
  words : List String := []
  /-- Whether help is asked for. -/
  wantsHelp : Bool := false
  deriving DecidableEq, Repr

namespace Arguments

/-- The values of an option. -/
def valuesOf (a : Arguments) (name : String) : List String :=
  (a.given.filter fun g => g.1 == name).map Prod.snd

/-- The value of an option that is given once at most. -/
def valueOf? (a : Arguments) (name : String) : Option String :=
  (a.valuesOf name).head?

/-- Puts an option in front. -/
def withOption (name value : String) (a : Arguments) : Arguments :=
  { a with given := (name, value) :: a.given }

end Arguments

namespace Grammar

/-- What an argument looks like. -/
inductive Look where
  /-- The end of the options. -/
  | dashes
  /-- A long option, perhaps with its value. -/
  | long (name : String) (value : Option String)
  /-- A short option, perhaps with its value. -/
  | short (letter : Char) (value : Option String)
  /-- Anything else, a lone dash included. -/
  | word
  deriving DecidableEq, Repr

/-- What an argument looks like. -/
def look (arg : String) : Look :=
  match arg.toList with
  | ['-', '-'] => .dashes
  | '-' :: '-' :: cs =>
    let name := String.ofList (cs.takeWhile (· != '='))
    match cs.dropWhile (· != '=') with
    | _ :: value => .long name (some (String.ofList value))
    | [] => .long name none
  | '-' :: c :: cs =>
    match cs with
    | [] => .short c none
    | '=' :: value => .short c (some (String.ofList value))
    | value => .short c (some (String.ofList value))
  | _ => .word

/-- Whether an argument can be the value of the option before it. -/
def isValue (arg : String) : Bool :=
  look arg == .word

/-- Puts words behind the options, if the command takes any. -/
def wordsOnly? (g : Grammar) (words : List String) : Option Arguments :=
  if g.takesWords || words.isEmpty then some { words } else none

/-- Reads arguments; `none` if an option is unknown or lacks its value, or if there are words where
none are taken. -/
def read? (g : Grammar) : List String → Option Arguments
  | [] => some {}
  | [arg] =>
    match look arg with
    | .long "help" none => some { wantsHelp := true }
    | .short 'h' _ => some { wantsHelp := true }
    | .dashes => some {}
    | .long name (some value) => do
      let flag ← g.flags.find? fun f => f.long == name
      return Arguments.withOption flag.long value {}
    | .short letter (some value) => do
      let flag ← g.flags.find? fun f => f.short == some letter
      return Arguments.withOption flag.long value {}
    | .word => g.wordsOnly? [arg]
    | _ => none
  | arg :: next :: rest =>
    match look arg with
    | .long "help" none => some { wantsHelp := true }
    | .short 'h' _ => some { wantsHelp := true }
    | .dashes => g.wordsOnly? (next :: rest)
    | .long name (some value) => do
      let flag ← g.flags.find? fun f => f.long == name
      (g.read? (next :: rest)).map (Arguments.withOption flag.long value)
    | .short letter (some value) => do
      let flag ← g.flags.find? fun f => f.short == some letter
      (g.read? (next :: rest)).map (Arguments.withOption flag.long value)
    | .long name none => do
      let flag ← g.flags.find? fun f => f.long == name
      if isValue next then (g.read? rest).map (Arguments.withOption flag.long next) else none
    | .short letter none => do
      let flag ← g.flags.find? fun f => f.short == some letter
      if isValue next then (g.read? rest).map (Arguments.withOption flag.long next) else none
    | .word => g.wordsOnly? (arg :: next :: rest)

/-- Whether no option is given more often than it may be, or with a value that it does not take. -/
def isRight (g : Grammar) (a : Arguments) : Bool :=
  g.flags.all fun f =>
    (f.isRepeatable || (a.valuesOf f.long).length ≤ 1) && (a.valuesOf f.long).all f.accepts

/-- The arguments of a command, if they are what it takes. -/
def arguments? (g : Grammar) (args : List String) : Option Arguments :=
  (g.read? args).filter g.isRight

end Grammar

end WaveFinder
