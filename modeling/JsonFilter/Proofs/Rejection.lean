import JsonFilter.Proofs.Engine.Interpreter
import JsonFilter.Proofs.Filter.Syntax

namespace JsonFilter

namespace Filter

namespace SyntaxError

variable {e : SyntaxError} {cs x : List Char}

theorem firstLine_eq_nil : firstLine cs = [] ↔ Blank.Only cs ∨ Blank.LineFirst cs :=
  Blank.trimEnd_eq_nil.trans Blank.only_takeWhile

theorem firstLine_isPrefix (cs : List Char) : firstLine cs <+: cs :=
  (Blank.trimEnd_isPrefix _).trans (List.takeWhile_prefix _)

theorem lineFeed_not_mem_firstLine (cs : List Char) : '\n' ∉ firstLine cs := by
  intro member
  have inside := (Blank.trimEnd_isPrefix _).subset member
  have other := List.mem_takeWhile_imp inside
  exact absurd rfl (bne_iff_ne.mp other)

def heading (e : SyntaxError) : String := "syntax error: expected " ++ e.wanted.text ++ ", found "

def ended (e : SyntaxError) : String := e.heading ++ "end of input"

def quoting (e : SyntaxError) (excerpt : List Char) : String :=
  e.heading ++ ("'" ++ String.ofList excerpt ++ "'")

theorem ended_ne_quoting (e : SyntaxError) (x : List Char) : e.ended ≠ e.quoting x := by
  intro same
  have texts := congrArg String.toList same
  rw [ended, quoting, String.toList_append, String.toList_append, String.toList_append,
    String.toList_append, List.append_assoc] at texts
  have first : "end of input".toList.head? = ("'".toList ++ _).head? :=
    congrArg List.head? (List.append_cancel_left texts)
  have quote : "'".toList.head? = some '\x27' := by decide
  rw [List.head?_append, quote, Option.some_or] at first
  exact absurd first (by decide)

theorem message_ended (blank : firstLine e.rest = []) : e.message = e.ended := by
  unfold message excerpt?
  rw [blank]
  rfl

theorem message_quoting (visible : firstLine e.rest ≠ []) :
    e.message = e.quoting ((firstLine e.rest).take excerptLength) := by
  obtain ⟨c, line, begins⟩ := List.exists_cons_of_ne_nil visible
  unfold message excerpt?
  rw [begins]
  rfl

theorem message_eq_ended : e.message = e.ended ↔ Blank.Only e.rest ∨ Blank.LineFirst e.rest := by
  rw [← firstLine_eq_nil]
  refine ⟨fun same => ?_, message_ended⟩
  by_contra visible
  exact ended_ne_quoting e _ (same.symm.trans (message_quoting visible))

theorem message_excerpt (visible : e.message ≠ e.ended) :
    ∃ x, e.message = e.quoting x ∧ x <+: e.rest ∧ x ≠ [] ∧ x.length ≤ 24 ∧ '\n' ∉ x := by
  have some : firstLine e.rest ≠ [] := fun blank => visible (message_ended blank)
  have front : (firstLine e.rest).take excerptLength <+: firstLine e.rest := List.take_prefix _ _
  refine ⟨_, message_quoting some, front.trans (firstLine_isPrefix _), ?_, List.length_take_le _ _,
    fun member => lineFeed_not_mem_firstLine _ (front.subset member)⟩
  exact fun empty => (List.take_eq_nil_iff.mp empty).elim (by decide) some

/-- What the message about an error says of the source that is left there. A blank line with more
behind it is taken for the end, but lexing must have failed inside a token. -/
structure Reported (source : List Char) (e : SyntaxError) : Prop where
  place : e.rest <:+: source
  unread : (lex source).isOk = false → e.rest <:+ source
  ended : e.message = e.ended ↔ Blank.Only e.rest ∨ Blank.LineFirst e.rest
  lineFirst : Blank.LineFirst e.rest → e.wanted.inToken = true ∧ (lex source).isOk = false
  quoted : e.message ≠ e.ended →
    ∃ x, e.message = e.quoting x ∧ x <+: e.rest ∧ x ≠ [] ∧ x.length ≤ 24 ∧ '\n' ∉ x

theorem reported_of_placed {source : List Char} (h : Source.Placed source e) :
    Reported source e where
  place := h.part
  unread := h.unread
  ended := message_eq_ended
  lineFirst line := by
    refine ⟨Bool.of_not_eq_false fun outside => ?_, Bool.of_not_eq_true fun lexed => ?_⟩
    · exact (h.outside (.inl outside)).not_lineFirst line
    · exact (h.outside (.inr lexed)).not_lineFirst line
  quoted := message_excerpt

end SyntaxError

namespace Program

theorem ofTerm_refused {fuel : Nat} {s : Source} {ds : List Diagnostic}
    (refused : ofTerm fuel s = .error ds) : ds ≠ [] ∧ ∀ e, .spelling e ∉ ds := by
  unfold ofTerm at refused
  dsimp only at refused
  split at refused
  · cases refused
  · rename_i us found _
    cases refused
    refine ⟨fun empty => ?_, fun e member => ?_⟩
    · exact found (List.reverse_eq_nil_iff.mp (List.map_eq_nil_iff.mp empty))
    · obtain ⟨u, -, ⟨⟩⟩ := List.mem_map.mp member

def errors? (source : String) : Option (List SyntaxError) :=
  match Source.parse source.toList with
  | .error es => some es
  | .ok _ => none

theorem compile_misspelled {source : String} {es : List SyntaxError}
    (misspelled : errors? source = some es) : compile source = .error (es.map .spelling) := by
  unfold errors? at misspelled
  cases read : Source.parse source.toList with
  | error es' =>
    rw [read] at misspelled
    cases misspelled
    simp only [compile, read]
  | ok s =>
    rw [read] at misspelled
    cases misspelled

/-- There is something wrong with a program that is refused, and every error of its spelling is
reported with the source that is left. -/
theorem compile_refused {source : String} {ds : List Diagnostic}
    (refused : compile source = .error ds) :
    ds ≠ [] ∧ ∀ e, .spelling e ∈ ds → e.Reported source.toList := by
  unfold compile at refused
  dsimp only at refused
  split at refused
  case h_1 es read =>
    cases refused
    obtain ⟨some, placed⟩ := Source.parse_refused read
    refine ⟨fun empty => some (List.map_eq_nil_iff.mp empty), fun e member => ?_⟩
    obtain ⟨e', listed, same⟩ := List.mem_map.mp member
    cases same
    exact SyntaxError.reported_of_placed (placed e listed)
  case h_2 s _ =>
    split at refused
    · obtain ⟨some, spelled⟩ := ofTerm_refused refused
      exact ⟨some, fun e member => absurd member (spelled e)⟩
    · rename_i found
      cases refused
      refine ⟨fun empty => found (List.map_eq_nil_iff.mp empty), fun e member => ?_⟩
      obtain ⟨path, -, ⟨⟩⟩ := List.mem_map.mp member

end Program

end Filter

namespace Interpreter

/-- A source is refused with a marker that joins messages, one at least. Each one about its spelling
quotes the source that is left, unless that is blank or, in a token, begins with a blank line. -/
theorem compile_reported {i : Interpreter} {source : String} {d : Document}
    (rejected : (i.compile source).1 = .error d) :
    ∃ ds, Filter.Program.compile source = .error ds ∧ ds ≠ [] ∧
      d = .invalid (some (String.intercalate "; " (ds.map Filter.Diagnostic.message))) ∧
      ∀ e, .spelling e ∈ ds → e.Reported source.toList := by
  cases compiled : Filter.Program.compile source with
  | ok p =>
    rw [compile_accepted compiled] at rejected
    cases rejected
  | error ds =>
    rw [Interpreter.compile_refused compiled] at rejected
    cases rejected
    obtain ⟨some, reported⟩ := Filter.Program.compile_refused compiled
    exact ⟨ds, rfl, some, rfl, reported⟩

def blanksText : String := "[1e\n, \"\\u12\u2003é\" $ \u0085"

def blanksDiagnostic : Document := .invalid (some (
  "syntax error: expected digit, found end of input; " ++
  "syntax error: expected 4-digit hexadecimal UTF-8 code point, found '\u2003é\" $'; " ++
  "syntax error: expected identifier, found end of input; " ++
  "syntax error: expected closing bracket, found end of input"))

theorem blanksText_reported :
    (({} : Interpreter).compile blanksText).1 = .error blanksDiagnostic ∧
      ∃ ds, Filter.Program.compile blanksText = .error ds ∧ ds ≠ [] ∧
        blanksDiagnostic =
          .invalid (some (String.intercalate "; " (ds.map Filter.Diagnostic.message))) ∧
        ∀ e, .spelling e ∈ ds → e.Reported blanksText.toList := by
  have misspelled : Filter.Program.errors? blanksText = some [
      ⟨.digit, "\n, \"\\u12\u2003é\" $ \u0085".toList⟩, ⟨.codePoint, "\u2003é\" $ \u0085".toList⟩,
      ⟨.identifier, " \u0085".toList⟩, ⟨.closing '[', []⟩] := by decide +kernel
  have rejected : (({} : Interpreter).compile blanksText).1 = .error blanksDiagnostic := by
    rw [Interpreter.compile_refused (Filter.Program.compile_misspelled misspelled)]
    exact congrArg (fun m => Except.error (Document.invalid (some m))) (by decide +kernel)
  exact ⟨rejected, compile_reported rejected⟩

/-- A line break behind an at sign is taken for the end of the source. -/
theorem line_break_reported_as_end :
    (({} : Interpreter).compile "@\n1").1 =
        .error (.invalid (some "syntax error: expected identifier, found end of input")) ∧
      ∃ e, Filter.Program.compile "@\n1" = .error [.spelling e] ∧ e.rest = ['\n', '1'] ∧
        e.message = e.ended ∧ ¬ Blank.Only e.rest := by
  have misspelled : Filter.Program.errors? "@\n1" = some [⟨.identifier, ['\n', '1']⟩] := by
    decide +kernel
  have refused := Filter.Program.compile_misspelled misspelled
  refine ⟨?_, ⟨.identifier, ['\n', '1']⟩, refused, rfl, rfl, ?_⟩
  · rw [Interpreter.compile_refused refused]
    exact congrArg (fun m => Except.error (Document.invalid (some m))) (by decide +kernel)
  · exact fun only => absurd (only '1' (by decide)) (by decide)

end Interpreter

end JsonFilter
