/-!
# Command/Help — what the program says about itself

The texts that are printed when help is asked for: one for the program, one for each command, and
one for the command that prints them.
-/

namespace WaveFinder

/-- What help can be asked for. -/
inductive Topic where
  /-- The program as a whole. -/
  | program
  /-- The command that shows what a query means. -/
  | parse
  /-- The command that runs a query. -/
  | search
  /-- The command that makes a query. -/
  | build
  /-- The command that prints help. -/
  | help
  deriving DecidableEq, Repr

namespace Topic

/-- The topic of a word on the command line. -/
def ofName? (name : String) : Option Topic :=
  if name = "parse" then some .parse
  else if name = "search" then some .search
  else if name = "build" then some .build
  else if name = "help" then some .help
  else none

/-- The lines of a topic. -/
def lines : Topic → List String
  | program => [
    "Wave search query compiler",
    "",
    "Usage: wave-search <COMMAND>",
    "",
    "Commands:",
    "  parse   Compile a search query and print the parsed parameters as JSON",
    "  search  Filter and sort wave summaries from a JSON file",
    "  build   Build a search query from form fields",
    "  help    Print this message or the help of the given subcommand(s)",
    "",
    "Options:",
    "  -h, --help     Print help",
    "  -V, --version  Print version"]
  | parse => [
    "Compile a search query and print the parsed parameters as JSON",
    "",
    "Usage: wave-search parse [query]...",
    "",
    "Arguments:",
    "  [query]...  Search query, e.g. 'in:inbox creator:alice orderby:dateasc'",
    "",
    "Options:",
    "  -h, --help  Print help"]
  | search => [
    "Filter and sort wave summaries from a JSON file",
    "",
    "Usage: wave-search search [OPTIONS] --records <records> [query]...",
    "",
    "Arguments:",
    "  [query]...  Search query, e.g. 'in:inbox creator:alice orderby:dateasc'",
    "",
    "Options:",
    "  -r, --records <records>  Path to a JSON array of wave summaries",
    "      --limit <limit>      Maximum number of wave ids to print",
    "  -h, --help               Print help"]
  | build => [
    "Build a search query from form fields",
    "",
    "Usage: wave-search build [OPTIONS]",
    "",
    "Options:",
    "      --scope <scope>                  Folder to search: inbox, shared or all [default: inbox]",
    "      --creator <creator>              Wave creators, separated by commas or spaces",
    "      --with <with>                    Participants, separated by commas or spaces",
    "      --created-from <created_from>    Created on or after (yyyyMMdd)",
    "      --created-to <created_to>        Created on or before (yyyyMMdd)",
    "      --modified-from <modified_from>  Modified on or after (yyyyMMdd)",
    "      --modified-to <modified_to>      Modified on or before (yyyyMMdd)",
    "      --orderby <orderby>              Sort key, repeatable; earlier keys take precedence",
    "  -h, --help                           Print help"]
  | help => [
    "Print this message or the help of the given subcommand(s)",
    "",
    "Usage: wave-search help [COMMAND]...",
    "",
    "Arguments:",
    "  [COMMAND]...  Print help for the subcommand(s)"]

/-- The text of a topic. -/
def text (t : Topic) : String :=
  "\n".intercalate t.lines

end Topic

end WaveFinder
