import JsonFilter.Proofs.CommandLine.Run
import JsonFilter.Proofs.Json.OneLine
import JsonFilter.Proofs.Shapes

namespace JsonFilter

theorem Shape.visible_text {s : Shape} (quoted : s.raw = false) (oneLine : s.compact = true)
    (j : Json) : s.text j ≠ "" ∧ Visible (s.text j).toList := by
  rw [text_chars quoted, oneLine, String.toList_ofList]
  refine ⟨fun empty => ?_, Json.visible_chars _ 0⟩
  have chars := congrArg String.toList empty
  rw [String.toList_ofList] at chars
  exact Json.chars_ne_nil _ _ _ chars

theorem Outcome.visible_ofItems {o : Options} (quoted : o.rawOutput = false)
    (oneLine : o.compactOutput = true) {items : List (Except String Json)} {cut : Option Interruption}
    {out : Output} (came : ofItems o items cut = .output out) :
    ∀ text ∈ out.toList, Visible text.toList := by
  unfold ofItems at came
  cases multiple : o.multipleOutputs with
  | true =>
    simp only [multiple, if_true] at came
    split at came <;> cases came
    intro text member
    obtain ⟨j, -, rfl⟩ := List.mem_map.mp member
    exact (Shape.visible_text quoted oneLine j).2
  | false =>
    simp only [multiple, Bool.false_eq_true, if_false] at came
    split at came <;> cases came
    · intro text member
      rw [List.mem_singleton.mp member]
      exact (Shape.visible_text quoted oneLine _).2
    · intro text member
      rw [List.mem_singleton.mp member]
      simp

theorem visible_filterWith {ω ε : Type} (eng : Engine ω ε) {json filter : String} {o : Options}
    (quoted : o.rawOutput = false) (oneLine : o.compactOutput = true) {t : Trace ω} {out : Output}
    (came : (filterWith eng json filter o t).1 = .output out) :
    ∀ text ∈ out.toList, Visible text.toList := by
  rcases filterWith_started eng json filter t with ⟨f, -, -, all⟩ | ⟨rs, -, all⟩
  · rw [all] at came
    cases came
  · rw [all] at came
    exact Outcome.visible_ofItems quoted oneLine came

namespace CommandLine

theorem splitOn_lines {texts : List String} (oneLine : ∀ t ∈ texts, '\n' ∉ t.toList) :
    (lines texts).toList.splitOn '\n' = texts.map String.toList ++ [[]] := by
  induction texts with
  | nil => rfl
  | cons t texts ih =>
    have first := oneLine t List.mem_cons_self
    have others := ih fun u member => oneLine u (List.mem_cons_of_mem t member)
    have chars : (lines (t :: texts)).toList = t.toList ++ '\n' :: (lines texts).toList := by
      simp [lines, line, String.toList_join]
    rw [chars, List.splitOn_append_cons_self_of_not_mem first, others]
    rfl

/-- The lines of a standard output are the results of a request, unless its filter ended the process
with an output of its own. -/
inductive Framed (stdout : String) : Outcome → Prop
  | results {out : Output}
    (split : stdout.toList.splitOn '\n' = out.toList.map String.toList ++ [[]]) :
    Framed stdout (.output out)
  | ended {e : Exit} (last : stdout = e.output) : Framed stdout (.interrupted (.exit e))

theorem Framed.split {stdout : String} {outcome : Outcome} {out : Output}
    (framed : Framed stdout outcome) (came : outcome = .output out) :
    stdout.toList.splitOn '\n' = out.toList.map String.toList ++ [[]] := by
  subst came
  cases framed with
  | results split => exact split

theorem respond_framed {args : List String} {verbose : Bool} {filter : String}
    {file : Option String} {flags : List Flag} {s : Surroundings}
    (asked : read args = .ok ⟨verbose, .run filter file flags⟩) (quoted : .rawOutput ∉ flags)
    (oneLine : .pretty ∉ flags) (success : (respond args s).code = some 0) :
    ∃ text, s.source file = .ok (Utf8.encode text) ∧
      Framed (respond args s).stdout (filterWith Interpreter.engine text filter
        (denoted flags (s.variableOf "JQFILTER_SORT_KEYS")) s.trace).1 := by
  by_cases readable : ∃ text, s.source file = .ok (Utf8.encode text)
  · obtain ⟨text, given⟩ := readable
    refine ⟨text, given, ?_⟩
    have reports := respond_reports asked given
    dsimp only at reports
    cases outcome : (filterWith Interpreter.engine text filter
        (denoted flags (s.variableOf "JQFILTER_SORT_KEYS")) s.trace).1 with
    | output out =>
      obtain ⟨-, stdout, -⟩ := reports.output out outcome
      have visible := visible_filterWith Interpreter.engine (decide_eq_false quoted)
        (decide_eq_true oneLine) outcome
      rw [stdout]
      exact .results (splitOn_lines fun t member => (visible t member).not_mem_newline)
    | failed f =>
      -- no failure has the exit code of a success
      obtain ⟨code, -, -⟩ := reports.failed f outcome
      rw [success] at code
      simp at code
    | interrupted i =>
      cases i with
      | exit e =>
        obtain ⟨-, stdout, -⟩ := reports.exited e outcome
        exact .ended stdout
      | unfinished =>
        obtain ⟨code, -, -⟩ := reports.unfinished outcome
        rw [success] at code
        cases code
  · obtain ⟨code, -⟩ := respond_unread asked (not_exists.mp readable)
    rw [success] at code
    cases code

theorem text_unsortedMembers : Shape.text ⟨false, true, true⟩ (.obj unsortedMembers) =
    "\x7b\"a\":[],\"z\":1\x7d" := by
  have order : ¬ "z" ≤ "a" := by decide
  have sorted : (Json.obj unsortedMembers).sortKeys =
      .obj [("a", .arr []), ("z", .num (.int 1))] := by
    rw [Json.sortKeys_obj]
    show Json.obj (Members.sorted [("z", .num (.int 1)), ("a", .arr [])]) = _
    simp [Members.sorted, List.mergeSort, List.MergeSort.Internal.splitInTwo, order]
  rw [Shape.text_chars rfl, if_pos rfl, sorted]
  rfl

/-- Compact texts hold no control characters, and so the lines of the standard output are the
results of the request. -/
theorem compact_lines :
    (∀ (j : Json) (sortKeys : Bool), ∃ text,
      Shape.format ⟨false, true, sortKeys⟩ (.json j) = .ok text ∧ text ≠ "" ∧
        ∀ c ∈ text.toList, 0x20 ≤ c.toNat) ∧
    ∀ (args : List String) (verbose : Bool) (filter : String) (file : Option String)
      (flags : List Flag) (s : Surroundings),
      read args = .ok ⟨verbose, .run filter file flags⟩ → .rawOutput ∉ flags → .pretty ∉ flags →
      (respond args s).code = some 0 →
      ∃ text, s.source file = .ok (Utf8.encode text) ∧
        Framed (respond args s).stdout (filterWith Interpreter.engine text filter
          (denoted flags (s.variableOf "JQFILTER_SORT_KEYS")) s.trace).1 := by
  refine ⟨fun j sortKeys => ⟨_, rfl, Shape.visible_text rfl rfl j⟩, ?_⟩
  intro args verbose filter file flags s asked quoted oneLine success
  exact respond_framed asked quoted oneLine success

theorem compact_lines_sorted :
    read ["run", "-S", "--all", ".[]"] = .ok ⟨false, .run ".[]" none [.sortKeys, .all]⟩ ∧
      (respond ["run", "-S", "--all", ".[]"] (.typed controlText)).code = some 0 ∧
      (respond ["run", "-S", "--all", ".[]"] (.typed controlText)).stdout.toList.splitOn '\n' =
        ["\"a\\nb\\u0001\"".toList, "\x7b\"a\":[],\"z\":1\x7d".toList, []] := by
  have asked : read ["run", "-S", "--all", ".[]"] =
      .ok ⟨false, .run ".[]" none [.sortKeys, .all]⟩ := by rfl
  have reports := respond_reports asked
    (show (Surroundings.typed controlText).source none = .ok (Utf8.encode controlText) from rfl)
  obtain ⟨success, -, -⟩ := reports.output _
    (Interpreter.filterWith_parts ofText_controlText _ _ rfl exact_controlParts)
  obtain ⟨text, given, framed⟩ := compact_lines.2 _ _ _ _ _ (.typed controlText) asked (by decide)
    (by decide) success
  have same : text = controlText := Utf8.encode_injective (Except.ok.inj given).symm
  subst same
  have split := framed.split
    (Interpreter.filterWith_parts ofText_controlText _ _ rfl exact_controlParts)
  refine ⟨asked, success, split.trans ?_⟩
  show [(Shape.text ⟨false, true, true⟩ (.str "a\nb\x01")).toList,
    (Shape.text ⟨false, true, true⟩ (.obj unsortedMembers)).toList, []] = _
  rw [text_unsortedMembers]
  rfl

/-- A process that a filter ends well can print what is no line. -/
theorem halt_error_prints_no_lines :
    read ["run", "--all", "halt_error(0)"] = .ok ⟨false, .run "halt_error(0)" none [.all]⟩ ∧
      (respond ["run", "--all", "halt_error(0)"] (.typed "\"a\\nb\"")).code = some 0 ∧
      ¬∃ texts : List String,
        (respond ["run", "--all", "halt_error(0)"] (.typed "\"a\\nb\"")).stdout.toList.splitOn '\n' =
          texts.map String.toList ++ [[]] := by
  have asked : read ["run", "--all", "halt_error(0)"] =
      .ok ⟨false, .run "halt_error(0)" none [.all]⟩ := by rfl
  have parsed : Document.ofText "\"a\\nb\"" = .json (.str "a\nb") := by rfl
  have call : (Filter.Source.parse "halt_error(0)".toList).toOption.bind
      (Filter.Program.numberFor? "halt_error") = some "0" := by decide +kernel
  have whole : (Value.ofNumeral "0".toList).asInt = .ok 0 := by rfl
  obtain ⟨code, stdout⟩ := respond_haltError asked (s := .typed "\"a\\nb\"") rfl parsed call whole
  refine ⟨asked, code, ?_⟩
  rw [stdout]
  rintro ⟨texts, split⟩
  have pieces : (Filter.Native.lastWords (.ofJson (.str "a\nb"))).toList.splitOn '\n' =
      [['a'], ['b']] := by decide
  have last := congrArg List.getLast? (pieces.symm.trans split)
  rw [List.getLast?_concat] at last
  cases last

end CommandLine

end JsonFilter
