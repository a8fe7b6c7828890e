namespace JsonFilter.CommandLine

def program : String := "jqfilter"

def version : String := "0.1.0"

inductive Flag
  | rawOutput | verbose | compactOutput | pretty | sortKeys | all
deriving DecidableEq, Repr

namespace Flag

def short : Flag → Char
  | .rawOutput => 'r'
  | .verbose => 'v'
  | .compactOutput => 'c'
  | .pretty => 'p'
  | .sortKeys => 'S'
  | .all => 'a'

def long : Flag → String
  | .rawOutput => "raw-output"
  | .verbose => "verbose"
  | .compactOutput => "compact-output"
  | .pretty => "pretty"
  | .sortKeys => "sort-keys"
  | .all => "all"

def about : Flag → String
  | .rawOutput => "Output string results without JSON quotes"
  | .verbose => "Log session lifecycle events to stderr (overridden by RUST_LOG)"
  | .compactOutput => "Single-line output (the default)"
  | .pretty => "Indented, multi-line output"
  | .sortKeys => "Sort object keys (also enabled by JQFILTER_SORT_KEYS=1)"
  | .all => "Print every result instead of only the first"

end Flag

/-- The program itself and its commands: what flags and operands are read for, and what has a page
of help. -/
inductive Topic
  | program | run | validate | help
deriving DecidableEq, Repr

namespace Topic

def commands : List Topic := [.run, .validate, .help]

def name : Topic → String
  | .program => CommandLine.program
  | .run => "run"
  | .validate => "validate"
  | .help => "help"

def ofCommand? (name : String) : Option Topic := commands.find? fun t => t.name = name

def about : Topic → String
  | .program => "Apply jq filters to JSON documents"
  | .run => "Run a filter against a JSON document"
  | .validate => "Check that a filter compiles, without running it"
  | .help => "Print this message or the help of the given subcommand(s)"

def flags : Topic → List Flag
  | .program => [.verbose]
  | .run => [.rawOutput, .verbose, .compactOutput, .pretty, .sortKeys, .all]
  | .validate => [.verbose]
  | .help => []

def operands : Topic → List (String × String)
  | .program => []
  | .run =>
    [("<FILTER>", "jq filter expression, e.g. '.users[] | .name'"),
      ("[FILE]", "Input file (defaults to stdin)")]
  | .validate => [("<FILTER>", "jq filter expression")]
  | .help => [("[COMMAND]...", "Print help for the subcommand(s)")]

end Topic

/-- What stands behind a dash: a flag, or a wish for help or for the version. -/
inductive Switch
  | flag (f : Flag)
  | help
  | version
deriving DecidableEq, Repr

namespace Switch

def short : Switch → Char
  | .flag f => f.short
  | .help => 'h'
  | .version => 'V'

def long : Switch → String
  | .flag f => f.long
  | .help => "help"
  | .version => "version"

def about : Switch → String
  | .flag f => f.about
  | .help => "Print help"
  | .version => "Print version"

end Switch

def Topic.switches : Topic → List Switch
  | .program => (flags .program).map .flag ++ [.help, .version]
  | .help => []
  | t => t.flags.map .flag ++ [.help]

end JsonFilter.CommandLine
