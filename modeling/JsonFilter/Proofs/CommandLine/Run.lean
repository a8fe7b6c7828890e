import JsonFilter.CommandLine.Response
import JsonFilter.Proofs.Events
import JsonFilter.Proofs.Iteration
import JsonFilter.Proofs.Json.Grammar
import JsonFilter.Proofs.Text.Decoding

namespace JsonFilter.CommandLine

open Json (bind_eq_ok)

section Reading

variable {verbose v : Bool} {args : List String} {filter : String} {file : Option String}
  {flags : List Flag}

theorem check_exclusive {t : Topic} {a : Arguments} (fits : a.check t = .ok ()) :
    ¬(.compactOutput ∈ a.flags ∧ .pretty ∈ a.flags) := by
  rintro ⟨compact, pretty⟩
  obtain ⟨-, -, exclusive⟩ := bind_eq_ok.mp fits
  have one : Flag.compactOutput ∈ a.flags.filter (· ∈ [Flag.compactOutput, .pretty]) := by
    simp [compact]
  have two : Flag.pretty ∈ a.flags.filter (· ∈ [Flag.compactOutput, .pretty]) := by simp [pretty]
  -- the check lets at most one flag of the two pass
  rcases listed : a.flags.filter (· ∈ [Flag.compactOutput, .pretty]) with _ | ⟨f, _ | ⟨g, rest⟩⟩
  · rw [listed] at one
    cases one
  · rw [listed, List.mem_singleton] at one two
    cases one.trans two.symm
  · rw [listed] at exclusive
    cases exclusive

theorem ofArgs_ofCommand {a : Arguments} {i : Invocation}
    (asked : Invocation.ofArgs a args = .ok i) :
    ∃ verbose t rest, Invocation.ofCommand verbose t rest = .ok i := by
  induction args generalizing a with
  | nil => cases asked
  | cons arg args ih =>
    unfold Invocation.ofArgs at asked
    split at asked
    · exact ⟨_, _, _, asked⟩
    · split at asked
      · exact ih asked
      · cases asked
      · split at asked
        · obtain ⟨a, -, asked⟩ := bind_eq_ok.mp asked
          exact ih asked
        · cases asked

theorem ofCommand_run {t : Topic}
    (asked : Invocation.ofCommand verbose t args = .ok ⟨v, .run filter file flags⟩) :
    ∃ a : Arguments, a.check t = .ok () ∧ a.flags = flags := by
  unfold Invocation.ofCommand at asked
  cases t with
  | program | help =>
    obtain ⟨topic, -, asked⟩ := bind_eq_ok.mp asked
    cases asked
  | run =>
    obtain ⟨a, -, asked⟩ := bind_eq_ok.mp asked
    obtain ⟨_, fits, asked⟩ := bind_eq_ok.mp asked
    cases asked
    exact ⟨a, fits, rfl⟩
  | validate =>
    obtain ⟨a, -, asked⟩ := bind_eq_ok.mp asked
    obtain ⟨-, -, asked⟩ := bind_eq_ok.mp asked
    cases asked

theorem read_exclusive (asked : read args = .ok ⟨verbose, .run filter file flags⟩) :
    ¬(.compactOutput ∈ flags ∧ .pretty ∈ flags) := by
  obtain ⟨_, t, _, asked⟩ := ofArgs_ofCommand asked
  obtain ⟨a, fits, rfl⟩ := ofCommand_run asked
  exact check_exclusive fits

def denoted (flags : List Flag) (sortKeys : Option String) : Options where
  rawOutput := .rawOutput ∈ flags
  compactOutput := .pretty ∉ flags
  sortKeys := .sortKeys ∈ flags ∨ isSet sortKeys
  multipleOutputs := .all ∈ flags

theorem optionsOf_eq_denoted (exclusive : ¬(.compactOutput ∈ flags ∧ .pretty ∈ flags))
    (sortKeys : Option String) : optionsOf flags sortKeys = denoted flags sortKeys := by
  have compact : (flags.contains .compactOutput || !flags.contains .pretty) =
      decide (.pretty ∉ flags) := by
    by_cases pretty : .pretty ∈ flags
    · have other : .compactOutput ∉ flags := fun compact => exclusive ⟨compact, pretty⟩
      simp [pretty, other]
    · simp [pretty]
  unfold optionsOf denoted
  rw [compact]
  simp

end Reading

section Logging

def printed (es : List Event) : List String :=
  es.filterMap fun
    | .printed t => some ("ERROR jaq_std: " ++ (Event.printed t).text)
    | _ => none

theorem hears_warnings (e : Event) : Log.Selection.warnings.hears e = true ↔ ∃ t, e = .printed t := by
  cases e <;> simp [Log.Selection.hears, Log.Selection.decisive, Log.Selection.warnings,
    Log.Directive.concerns, Threshold.hears, Event.level, Level.rank]

theorem line_printed (t : String) :
    (Event.printed t).line = "ERROR jaq_std: " ++ (Event.printed t).text := by
  have front : "ERROR" ++ " " ++ "jaq_std" ++ ": " = "ERROR jaq_std: " := by decide
  exact congrArg (· ++ (Event.printed t).text) front

theorem heard_warnings (es : List Event) :
    (Log.Selection.warnings.heard es).map Event.line = printed es := by
  unfold Log.Selection.heard printed
  induction es with
  | nil => rfl
  | cons e es ih =>
    cases e with
    | printed t =>
      rw [List.filter_cons_of_pos ((hears_warnings _).mpr ⟨t, rfl⟩), List.map_cons, ih, line_printed]
      rfl
    | _ =>
      rw [List.filter_cons_of_neg (by simp [hears_warnings]), ih]
      rfl

end Logging

section Responding

variable {args : List String} {verbose : Bool} {filter : String} {file : Option String}
  {flags : List Flag} {s : Surroundings}

theorem text_eq_ok {source : Source} {text : String} :
    source.text = .ok text ↔ source = .ok (Utf8.encode text) := by
  constructor
  · intro taken
    obtain ⟨bytes, given, taken⟩ := bind_eq_ok.mp taken
    cases read : Utf8.decode bytes with
    | error f =>
      rw [read] at taken
      cases taken
    | ok t =>
      rw [read] at taken
      cases taken
      rw [given, Utf8.decode_eq_ok.mp read]
  · rintro rfl
    have read : Utf8.decode (Utf8.encode text) = .ok text := Utf8.decode_eq_ok.mpr rfl
    refine bind_eq_ok.mpr ⟨_, rfl, ?_⟩
    rw [read]
    rfl

theorem respond_unread (asked : read args = .ok ⟨verbose, .run filter file flags⟩)
    (unread : ∀ text, s.source file ≠ .ok (Utf8.encode text)) :
    (respond args s).code = some 1 ∧ (respond args s).stdout = "" := by
  cases text : (s.source file).text with
  | ok t => exact absurd (text_eq_ok.mp text) (unread t)
  | error f =>
    have answer : respond args s = ⟨some 1, "", readReport file f⟩ := by
      simp only [respond, asked, Invocation.respond, text]
    rw [answer]
    exact ⟨rfl, rfl⟩

def logLines (verbose : Bool) (s : Surroundings) (es : List Event) : String :=
  lines (((hearing verbose (s.variableOf "RUST_LOG")).heard es).map Event.line)

theorem logLines_quiet (unset : s.variableOf "RUST_LOG" = none) (es : List Event) :
    logLines false s es = lines (printed es) := by
  rw [logLines, unset, ← heard_warnings]
  rfl

theorem respond_read (asked : read args = .ok ⟨verbose, .run filter file flags⟩) {text : String}
    (given : s.source file = .ok (Utf8.encode text)) :
    respond args s =
      let r := filterWith Interpreter.engine text filter
        (denoted flags (s.variableOf "JQFILTER_SORT_KEYS")) s.trace
      .ofOutcome (logLines verbose s r.2.events) r.1 := by
  simp only [respond, asked, Invocation.respond, text_eq_ok.mpr given,
    optionsOf_eq_denoted (read_exclusive asked), logLines]

end Responding

/-- How a response shows what a request came to. What filters print stands in front of a report, and
without logging there is nothing else on the error stream. -/
structure Response.Reports (quiet : Prop) (printed : List String) (outcome : Outcome)
    (r : Response) : Prop where
  output : ∀ o, outcome = .output o →
    r.code = some 0 ∧ r.stdout = String.join (o.toList.map (· ++ "\n")) ∧
    (quiet → r.stderr = lines printed)
  failed : ∀ f, outcome = .failed f →
    (f.kind, r.code) ∈ [(Failure.Kind.parse, some 2), (.compile, some 3), (.runtime, some 5),
      (.base, some 1)] ∧
    r.stdout = "" ∧ (quiet → r.stderr = lines printed ++
      ("jqfilter: " ++ f.kind.label ++ " error: " ++ f.message ++ "\n"))
  exited : ∀ e, outcome = .interrupted (.exit e) →
    r.code = some (e.code % 256).toNat ∧ r.stdout = e.output ∧ (quiet → r.stderr = lines printed)
  unfinished : outcome = .interrupted .unfinished →
    r.code = none ∧ r.stdout = "" ∧ (quiet → r.stderr = lines printed)
  whole : r.stdout ≠ "" → r.code = some 0 ∨ ∃ e, outcome = .interrupted (.exit e)

theorem report_eq (f : Failure) :
    report f = "jqfilter: " ++ f.kind.label ++ " error: " ++ f.message ++ "\n" := by
  have front : program ++ ": " = "jqfilter: " := by decide
  rw [← front]
  rfl

theorem reports_ofOutcome {quiet : Prop} {log : String} {written : List String}
    (heard : quiet → log = lines written) (outcome : Outcome) :
    (Response.ofOutcome log outcome).Reports quiet written outcome := by
  cases outcome with
  | output o =>
    refine ⟨?_, nofun, nofun, nofun, fun _ => .inl rfl⟩
    rintro _ ⟨⟩
    exact ⟨rfl, rfl, heard⟩
  | failed f =>
    refine ⟨nofun, ?_, nofun, nofun, fun some => absurd rfl some⟩
    rintro _ ⟨⟩
    refine ⟨?_, rfl, fun quiet => ?_⟩
    · show (f.kind, some (exitCode f.kind)) ∈ _
      cases f.kind <;> decide
    · rw [← report_eq, ← heard quiet]
      rfl
  | interrupted i =>
    cases i with
    | exit e =>
      refine ⟨nofun, nofun, ?_, nofun, fun _ => .inr ⟨e, rfl⟩⟩
      rintro _ ⟨⟩
      exact ⟨rfl, rfl, heard⟩
    | unfinished =>
      exact ⟨nofun, nofun, nofun, fun _ => ⟨rfl, rfl, heard⟩, fun some => absurd rfl some⟩

section Requests

variable {args : List String} {verbose : Bool} {filter text : String} {file : Option String}
  {flags : List Flag} {s : Surroundings} {j : Json}

theorem respond_reports (asked : read args = .ok ⟨verbose, .run filter file flags⟩)
    (given : s.source file = .ok (Utf8.encode text)) :
    let r := filterWith Interpreter.engine text filter
      (denoted flags (s.variableOf "JQFILTER_SORT_KEYS")) s.trace
    (respond args s).Reports (verbose = false ∧ s.variableOf "RUST_LOG" = none)
      (printed r.2.events) r.1 := by
  rw [respond_read asked given]
  refine reports_ofOutcome ?_ _
  rintro ⟨rfl, unset⟩
  exact logLines_quiet unset _

/-- All or nothing: an input that is no text is refused whatever the filter is, and for any other
the answer is that of one request. -/
theorem respond_run (asked : read args = .ok ⟨verbose, .run filter file flags⟩)
    (s : Surroundings) :
    ((∀ text, s.source file ≠ .ok (Utf8.encode text)) →
      (respond args s).code = some 1 ∧ (respond args s).stdout = "") ∧
    ∀ text, s.source file = .ok (Utf8.encode text) →
      let r := filterWith Interpreter.engine text filter
        (denoted flags (s.variableOf "JQFILTER_SORT_KEYS")) s.trace
      (respond args s).Reports (verbose = false ∧ s.variableOf "RUST_LOG" = none)
        (printed r.2.events) r.1 :=
  ⟨respond_unread asked, fun _ given => respond_reports asked given⟩

theorem respond_haltError {number : String} {code : Int}
    (asked : read args = .ok ⟨verbose, .run filter file flags⟩)
    (given : s.source file = .ok (Utf8.encode text)) (parsed : Document.ofText text = .json j)
    (call : (Filter.Source.parse filter.toList).toOption.bind
      (Filter.Program.numberFor? "halt_error") = some number)
    (whole : (Value.ofNumeral number.toList).asInt = .ok code) :
    (respond args s).code = some (code % 256).toNat ∧
      (respond args s).stdout = Filter.Native.lastWords (.ofJson j) := by
  have reports := respond_reports asked given
  obtain ⟨code, stdout, -⟩ :=
    reports.exited _ (Interpreter.filterWith_haltError _ _ call whole parsed)
  exact ⟨code, stdout⟩

theorem mem_printed {es : List Event} {t : String} (member : .printed t ∈ es) :
    "ERROR jaq_std: " ++ (Event.printed t).text ∈ printed es :=
  List.mem_filterMap.mpr ⟨_, member, rfl⟩

theorem lines_ne_empty {ss : List String} {line : String} (member : line ∈ ss) : lines ss ≠ "" := by
  intro empty
  have chars := congrArg String.toList empty
  rw [lines, String.toList_join] at chars
  have one := List.flatMap_eq_nil_iff.mp chars _ (List.mem_map_of_mem member)
  simp [CommandLine.line] at one

theorem respond_stderr (asked : read args = .ok ⟨false, .run "stderr" file flags⟩)
    (given : s.source file = .ok (Utf8.encode text)) (parsed : Document.ofText text = .json j)
    (unset : s.variableOf "RUST_LOG" = none) :
    (respond args s).code = some 0 ∧ (respond args s).stderr ≠ "" := by
  have reports := respond_reports asked given
  obtain ⟨o, output⟩ := Interpreter.filterWith_stderr _ s.trace parsed
  obtain ⟨code, -, stderr⟩ := reports.output o output
  refine ⟨code, ?_⟩
  rw [stderr ⟨rfl, unset⟩]
  exact lines_ne_empty (mem_printed (Interpreter.printed_mem_filterWith_stderr _ s.trace parsed))

end Requests

def Surroundings.typed (text : String) : Surroundings where
  source _ := .ok (Utf8.encode text)
  setting := .bare

/-- A line feed and another control character, and keys out of order. -/
def controlText : String := "[\"a\\nb\\u0001\", \x7b\"z\": 1, \"a\": []\x7d]"

def unsortedMembers : Members Json := [("z", .num (.int 1)), ("a", .arr [])]

def controlParts : List Json := [.str "a\nb\x01", .obj unsortedMembers]

theorem ofText_controlText : Document.ofText controlText = .json (.arr controlParts) := by rfl

theorem exact_controlParts : (Json.arr controlParts).Exact := by
  simp [controlParts, unsortedMembers, Number.InRange]

theorem respond_run_pretty :
    read ["run", "-pr", "--all", ".[]"] =
        .ok ⟨false, .run ".[]" none [.pretty, .rawOutput, .all]⟩ ∧
      (respond ["run", "-pr", "--all", ".[]"] (.typed controlText)).code = some 0 ∧
      (respond ["run", "-pr", "--all", ".[]"] (.typed controlText)).stdout =
        "a\nb\x01\n\x7b\n  \"z\": 1,\n  \"a\": []\n\x7d\n" := by
  have asked : read ["run", "-pr", "--all", ".[]"] =
      .ok ⟨false, .run ".[]" none [.pretty, .rawOutput, .all]⟩ := by rfl
  have reports := (respond_run asked (.typed controlText)).2 controlText rfl
  obtain ⟨code, stdout, -⟩ := reports.output _
    (Interpreter.filterWith_parts ofText_controlText _ _ rfl exact_controlParts)
  exact ⟨asked, code, stdout⟩

/-- A filter can print and fail, and it can write to the error stream and succeed. -/
theorem halt_error_prints_and_stderr_succeeds :
    read ["run", "halt_error(5)"] = .ok ⟨false, .run "halt_error(5)" none []⟩ ∧
      read ["run", "stderr"] = .ok ⟨false, .run "stderr" none []⟩ ∧
      ¬((respond ["run", "halt_error(5)"] (.typed "\"boom\"")).stdout ≠ "" →
        (respond ["run", "halt_error(5)"] (.typed "\"boom\"")).code = some 0) ∧
      ¬((respond ["run", "stderr"] (.typed "[1]")).code = some 0 →
        (respond ["run", "stderr"] (.typed "[1]")).stderr = "") := by
  have halting : read ["run", "halt_error(5)"] = .ok ⟨false, .run "halt_error(5)" none []⟩ := by rfl
  have writing : read ["run", "stderr"] = .ok ⟨false, .run "stderr" none []⟩ := by rfl
  have call : (Filter.Source.parse "halt_error(5)".toList).toOption.bind
      (Filter.Program.numberFor? "halt_error") = some "5" := by decide +kernel
  have whole : (Value.ofNumeral "5".toList).asInt = .ok 5 := by rfl
  have boom : Document.ofText "\"boom\"" = .json (.str "boom") := by rfl
  have one : Document.ofText "[1]" = .json (.arr [.num (.int 1)]) := by rfl
  obtain ⟨code, stdout⟩ := respond_haltError halting (s := .typed "\"boom\"") rfl boom call whole
  obtain ⟨success, written⟩ := respond_stderr writing (s := .typed "[1]") rfl one rfl
  refine ⟨halting, writing, fun claimed => ?_, fun claimed => written (claimed success)⟩
  rw [code, stdout] at claimed
  exact absurd (claimed (by decide)) (by decide)

end JsonFilter.CommandLine
