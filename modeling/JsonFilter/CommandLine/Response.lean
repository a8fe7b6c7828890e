import JsonFilter.CommandLine.Reader
import JsonFilter.Engine.Interpreter
import JsonFilter.Log
import JsonFilter.Request
import JsonFilter.Text.Utf8

namespace JsonFilter.CommandLine

/-- Why an input cannot be read. -/
inductive ReadFault
  | missing
  | directory
  | notDirectory
  | longName
  | notText
  | other (text : String)
deriving DecidableEq, Repr

def ReadFault.text : ReadFault → String
  | .missing => "No such file or directory (os error 2)"
  | .directory => "Is a directory (os error 21)"
  | .notDirectory => "Not a directory (os error 20)"
  | .longName => "File name too long (os error 36)"
  | .notText => "stream did not contain valid UTF-8"
  | .other text => text

abbrev Source := Except ReadFault (List Nat)

def Source.text (s : Source) : Except ReadFault String := do
  match Utf8.decode (← s) with
  | .ok t => return t
  | .error _ => throw .notText

structure Surroundings where
  source : Option String → Source
  setting : Filter.Setting

namespace Surroundings

def variableOf (s : Surroundings) (name : String) : Option String :=
  s.setting.host.environ.lookup name

def trace (s : Surroundings) : Trace Interpreter.World := ⟨fun _ => s.setting, []⟩

end Surroundings

/-- What is seen of a run of the program. Without an exit code it goes on. -/
structure Response where
  code : Option Nat
  stdout : String := ""
  stderr : String := ""
deriving DecidableEq, Repr

def line (s : String) : String := s ++ "\n"

def lines (ss : List String) : String := String.join (ss.map line)

def exitCode : Failure.Kind → Nat
  | .parse => 2
  | .compile => 3
  | .runtime => 5
  | .base => 1

def report (f : Failure) : String :=
  line (program ++ ": " ++ f.kind.label ++ " error: " ++ f.message)

def readReport (file : Option String) (f : ReadFault) : String :=
  let what := match file with
    | some name => "input: " ++ name
    | none => "stdin"
  lines ["Error: failed to read " ++ what, "", "Caused by:", "    " ++ f.text]

def isSet (value : Option String) : Bool :=
  value.any fun v => v = "1" || v.map Char.toLower = "true"

def optionsOf (flags : List Flag) (sortKeys : Option String) : Options where
  rawOutput := flags.contains .rawOutput
  compactOutput := flags.contains .compactOutput || !flags.contains .pretty
  sortKeys := flags.contains .sortKeys || isSet sortKeys
  multipleOutputs := flags.contains .all

/-- What is heard of the events: what the variable for the log says, if it can be read. -/
def hearing (verbose : Bool) (log : Option String) : Log.Selection :=
  (log.bind Log.Selection.ofText?).getD (if verbose then .lifecycle else .warnings)

/-- What a request prints and returns; `log` is printed before a report. -/
def Response.ofOutcome (log : String) : Outcome → Response
  | .output o => ⟨some 0, lines o.toList, log⟩
  | .failed f => ⟨some (exitCode f.kind), "", log ++ report f⟩
  | .interrupted (.exit e) => ⟨some (e.code % 256).toNat, e.output, log⟩
  | .interrupted .unfinished => ⟨none, "", log⟩

def Response.ofStop : Stop → Response
  | .help t => { code := some 0, stdout := t.page }
  | .version => { code := some 0, stdout := line (program ++ " " ++ CommandLine.version) }
  | .noArguments => { code := some 2, stderr := Topic.page .program }
  | .misuse m =>
    { code := some 2,
      stderr := lines ["error: " ++ m.message, "", "For more information, try '--help'."] }

def Invocation.respond (i : Invocation) (s : Surroundings) : Response :=
  let log (es : List Event) : String :=
    lines (((hearing i.verbose (s.variableOf "RUST_LOG")).heard es).map Event.line)
  match i.task with
  | .run filter file flags =>
    match (s.source file).text with
    | .error f => ⟨some 1, "", readReport file f⟩
    | .ok text =>
      let options := optionsOf flags (s.variableOf "JQFILTER_SORT_KEYS")
      let (outcome, t) := filterWith Interpreter.engine text filter options s.trace
      .ofOutcome (log t.events) outcome
  | .validate filter =>
    match validateWith Interpreter.engine filter s.trace with
    | (.ok (), t) => ⟨some 0, line "true", log t.events⟩
    | (.error f, t) => ⟨some (exitCode f.kind), "", log t.events ++ report f⟩

def respond (args : List String) (s : Surroundings) : Response :=
  match read args with
  | .error stop => .ofStop stop
  | .ok i => i.respond s

end JsonFilter.CommandLine
