import JsonFilter.Proofs.CommandLine.Run
import JsonFilter.Proofs.CommandLine.Verbose
import JsonFilter.Proofs.Lifecycle

namespace JsonFilter

def Outcome.interruption? : Outcome → Option Interruption
  | .interrupted i => some i
  | .output _ | .failed _ => none

namespace CommandLine

open Arguments (IsVerbose)

def Task.finished : Task → State
  | .run .. => .done
  | .validate _ => .compiled

/-- The log of a task that comes to its end with an exit code, and the report behind the log. -/
inductive Lifecycle (task : Task) : Nat → List Event → String → Prop
  | finished : Lifecycle task 0 [.engineCreated, .tornDown task.finished] ""
  | uncompiled (m : String) :
    Lifecycle task 3 [.engineCreated, .compileFailed m, .tornDown .failed] (report ⟨.compile, m⟩)
  | unparsed (m : String) :
    Lifecycle task 2 [.engineCreated, .parseFailed m, .tornDown .failed] (report ⟨.parse, m⟩)
  | unevaluated (m : String) :
    Lifecycle task 5 [.engineCreated, .evaluationFailed m, .tornDown .failed] (report ⟨.runtime, m⟩)

/-- The input of a task can be read, if it has one. -/
def Task.Readable (s : Surroundings) : Task → Prop
  | .run _ file _ => ∃ text, s.source file = .ok (Utf8.encode text)
  | .validate _ => True

def Task.interruption? (s : Surroundings) : Task → Option Interruption
  | .run filter file flags =>
    match (s.source file).text with
    | .error _ => none
    | .ok text => (filterWith Interpreter.engine text filter
        (denoted flags (s.variableOf "JQFILTER_SORT_KEYS")) s.trace).1.interruption?
  | .validate _ => none

/-- What a response with logging has to do with the response without it. -/
structure Response.Logs (task : Task) (cut : Option Interruption) (plain logged : Response) :
    Prop where
  code : logged.code = plain.code
  stdout : logged.stdout = plain.stdout
  ended : cut = none → ∃ code es rest, logged.code = some code ∧ Lifecycle task code es rest ∧
    logged.stderr = lines (es.map Event.line) ++ rest
  exited : ∀ e, cut = some (.exit e) → logged.code = some (e.code % 256).toNat ∧
    logged.stdout = e.output ∧ logged.stderr = lines [Event.engineCreated.line]
  unfinished : cut = some .unfinished → logged.code = none ∧ logged.stdout = "" ∧
    logged.stderr = lines [Event.engineCreated.line]

section Flags

variable {flags flags' : List Flag} {f : Flag}

theorem mem_of_quiet (same : flags'.filter (· ≠ .verbose) = flags.filter (· ≠ .verbose))
    (other : f ≠ .verbose) : f ∈ flags' ↔ f ∈ flags := by
  have inside (fs : List Flag) : f ∈ fs ↔ f ∈ fs.filter (· ≠ .verbose) := by simp [other]
  rw [inside, same, ← inside]

theorem denoted_of_quiet (same : flags'.filter (· ≠ .verbose) = flags.filter (· ≠ .verbose))
    (sortKeys : Option String) : denoted flags' sortKeys = denoted flags sortKeys := by
  have kept {f : Flag} : f ≠ .verbose → (f ∈ flags' ↔ f ∈ flags) := mem_of_quiet same
  simp only [denoted, kept (f := .rawOutput) (by decide), kept (f := .pretty) (by decide),
    kept (f := .sortKeys) (by decide), kept (f := .all) (by decide)]

end Flags

section Responses

variable {filter text : String} {file : Option String} {flags : List Flag} {s : Surroundings}
  {outcome : Outcome}

theorem logLines_lifecycle (unset : s.variableOf "RUST_LOG" = none) (es : List Event) :
    logLines true s es = lines ((Log.Selection.lifecycle.heard es).map Event.line) := by
  rw [logLines, unset]
  rfl

theorem lifecycle_ofOutcome (staged : ∀ m, outcome ≠ .failed ⟨.base, m⟩)
    (whole : ∀ i, outcome ≠ .interrupted i) :
    let r := Response.ofOutcome (lines ((.engineCreated :: outcome.ending).map Event.line)) outcome
    ∃ code es rest, r.code = some code ∧ Lifecycle (.run filter file flags) code es rest ∧
      r.stderr = lines (es.map Event.line) ++ rest := by
  rcases outcome with o | ⟨kind, m⟩ | i
  · exact ⟨_, _, _, rfl, .finished, String.append_empty.symm⟩
  · cases kind with
    | parse => exact ⟨_, _, _, rfl, .unparsed m, rfl⟩
    | compile => exact ⟨_, _, _, rfl, .uncompiled m, rfl⟩
    | runtime => exact ⟨_, _, _, rfl, .unevaluated m, rfl⟩
    | base => exact absurd rfl (staged m)
  · exact absurd rfl (whole i)

theorem interruption?_run (given : s.source file = .ok (Utf8.encode text)) :
    (Task.run filter file flags).interruption? s = (filterWith Interpreter.engine text filter
      (denoted flags (s.variableOf "JQFILTER_SORT_KEYS")) s.trace).1.interruption? := by
  rw [Task.interruption?, text_eq_ok.mpr given]

theorem logs_ofOutcome (staged : ∀ m, outcome ≠ .failed ⟨.base, m⟩) (log : String) :
    Response.Logs (.run filter file flags) outcome.interruption? (.ofOutcome log outcome)
      (.ofOutcome (lines ((.engineCreated :: outcome.ending).map Event.line)) outcome) := by
  rcases outcome with o | f | e | _
  · exact ⟨rfl, rfl, fun _ => lifecycle_ofOutcome staged nofun, nofun, nofun⟩
  · exact ⟨rfl, rfl, fun _ => lifecycle_ofOutcome staged nofun, nofun, nofun⟩
  · refine ⟨rfl, rfl, nofun, ?_, nofun⟩
    rintro _ ⟨⟩
    exact ⟨rfl, rfl, rfl⟩
  · exact ⟨rfl, rfl, nofun, nofun, fun _ => ⟨rfl, rfl, rfl⟩⟩

end Responses

section Tasks

variable {args args' front back : List String} {word filter : String} {file : Option String}
  {flags flags' : List Flag} {s : Surroundings} {verbose : Bool} {task : Task}

theorem respond_run_logs (asked : read args = .ok ⟨false, .run filter file flags⟩)
    (loud : read args' = .ok ⟨true, .run filter file flags'⟩)
    (same : flags'.filter (· ≠ .verbose) = flags.filter (· ≠ .verbose))
    (unset : s.variableOf "RUST_LOG" = none) {text : String}
    (given : s.source file = .ok (Utf8.encode text)) :
    Response.Logs (.run filter file flags) ((Task.run filter file flags).interruption? s)
      (respond args s) (respond args' s) := by
  obtain ⟨heard, staged⟩ := Interpreter.heard_filterWith
    (denoted flags (s.variableOf "JQFILTER_SORT_KEYS")) (fun _ => s.setting) text filter
  rw [respond_read asked given, respond_read loud given, denoted_of_quiet same,
    interruption?_run given, Surroundings.trace]
  dsimp only
  rw [logLines_lifecycle unset, heard]
  exact logs_ofOutcome staged _

theorem respond_validate (asked : read args = .ok ⟨verbose, .validate filter⟩) :
    respond args s =
      let r := validateWith Interpreter.engine filter s.trace
      match r.1 with
      | .ok () => ⟨some 0, line "true", logLines verbose s r.2.events⟩
      | .error f => ⟨some (exitCode f.kind), "", logLines verbose s r.2.events ++ report f⟩ := by
  simp only [respond, asked, Invocation.respond, logLines]
  rcases validateWith Interpreter.engine filter s.trace with ⟨f | _, t⟩
  · rfl
  · rfl

theorem respond_validate_logs (asked : read args = .ok ⟨false, .validate filter⟩)
    (loud : read args' = .ok ⟨true, .validate filter⟩)
    (unset : s.variableOf "RUST_LOG" = none) :
    Response.Logs (.validate filter) none (respond args s) (respond args' s) := by
  have heard := Interpreter.heard_validateWith (fun _ => s.setting) filter
  rw [respond_validate asked, respond_validate loud, Surroundings.trace]
  dsimp only at heard ⊢
  rw [logLines_lifecycle unset, heard]
  cases compiled : Filter.Program.compile filter with
  | ok p =>
    rw [Interpreter.validateWith_ok _ compiled]
    exact ⟨rfl, rfl, fun _ => ⟨_, _, _, rfl, .finished, String.append_empty.symm⟩, nofun, nofun⟩
  | error ds =>
    rw [Interpreter.validateWith_error _ compiled]
    exact ⟨rfl, rfl, fun _ => ⟨_, _, _, rfl, .uncompiled _, rfl⟩, nofun, nofun⟩

/-- Adding the flag for logging changes neither the exit code nor the standard output, and what it
adds to the error stream is the life of one session. -/
theorem respond_verbose (asked : read (front ++ back) = .ok ⟨false, task⟩) (ahead : "--" ∉ front)
    (spelled : IsVerbose word) (unset : s.variableOf "RUST_LOG" = none)
    (readable : task.Readable s) :
    Response.Logs task (task.interruption? s) (respond (front ++ back) s)
      (respond (front ++ word :: back) s) := by
  obtain ⟨task', loud, same⟩ := read_verbose spelled ahead asked
  cases task with
  | run filter file flags =>
    obtain ⟨text, given⟩ := readable
    cases task' with
    | validate filter' => cases same
    | run filter' file' flags' =>
      injection same with filters files others
      subst filters files
      exact respond_run_logs asked loud others unset given
  | validate filter =>
    cases task' with
    | run filter' file' flags' => cases same
    | validate filter' =>
      cases same
      exact respond_validate_logs asked loud unset

end Tasks

theorem respond_verbose_stderr :
    read (["run"] ++ ["stderr"]) = .ok ⟨false, .run "stderr" none []⟩ ∧ "--" ∉ ["run"] ∧
      IsVerbose "-v" ∧ (Surroundings.typed "[1]").variableOf "RUST_LOG" = none ∧
      (Task.run "stderr" none []).Readable (.typed "[1]") ∧
      Response.Logs (.run "stderr" none []) none (respond (["run"] ++ ["stderr"]) (.typed "[1]"))
        (respond (["run"] ++ "-v" :: ["stderr"]) (.typed "[1]")) := by
  have asked : read (["run"] ++ ["stderr"]) = .ok ⟨false, .run "stderr" none []⟩ := by rfl
  have ahead : "--" ∉ ["run"] := by decide
  have readable : (Task.run "stderr" none []).Readable (.typed "[1]") := ⟨"[1]", rfl⟩
  have one : Document.ofText "[1]" = .json (.arr [.num (.int 1)]) := by rfl
  have lives : (Task.run "stderr" none []).interruption? (.typed "[1]") = none := by
    rw [interruption?_run rfl]
    obtain ⟨o, output⟩ := Interpreter.filterWith_stderr
      (denoted [] ((Surroundings.typed "[1]").variableOf "JQFILTER_SORT_KEYS"))
      (Surroundings.typed "[1]").trace one
    rw [output]
    rfl
  have logs := respond_verbose asked ahead (.inl rfl) rfl readable
  rw [lives] at logs
  exact ⟨asked, ahead, .inl rfl, rfl, readable, logs⟩

/-- A process that a filter ends logs the creation of its engine and no more. -/
theorem halt_tears_nothing_down :
    read ["run", "halt"] = .ok ⟨false, .run "halt" none []⟩ ∧
      read ["run", "-v", "halt"] = .ok ⟨true, .run "halt" none [.verbose]⟩ ∧
      (Task.run "halt" none []).Readable (.typed "null") ∧
      ¬∃ code es rest, (respond ["run", "-v", "halt"] (.typed "null")).code = some code ∧
        Lifecycle (.run "halt" none []) code es rest ∧
        (respond ["run", "-v", "halt"] (.typed "null")).stderr =
          lines (es.map Event.line) ++ rest := by
  have asked : read ["run", "halt"] = .ok ⟨false, .run "halt" none []⟩ := by rfl
  have loud : read ["run", "-v", "halt"] = .ok ⟨true, .run "halt" none [.verbose]⟩ := by rfl
  have null : Document.ofText "null" = .json .null := by rfl
  have ends : (Task.run "halt" none []).interruption? (.typed "null") =
      some (.exit ⟨0, ""⟩) := by
    rw [interruption?_run rfl, Interpreter.filterWith_halt _ _ null]
    rfl
  have logs := respond_run_logs asked loud rfl (s := .typed "null") rfl rfl
  obtain ⟨code, -, stderr⟩ := logs.exited _ ends
  refine ⟨asked, loud, ⟨"null", rfl⟩, ?_⟩
  rintro ⟨c, es, rest, same, life, written⟩
  rw [code] at same
  rw [stderr] at written
  cases same
  cases life
  -- one line more would be longer
  have longer := congrArg String.length written
  simp [lines, line] at longer

end CommandLine

end JsonFilter
