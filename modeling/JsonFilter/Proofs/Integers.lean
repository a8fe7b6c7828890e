import JsonFilter.Proofs.Document
import JsonFilter.Proofs.Identity
import JsonFilter.Proofs.Json.Integer
import JsonFilter.Proofs.Stages

namespace JsonFilter

namespace Shape

variable (shape : Shape)

theorem text_num (n : Number) : shape.text (.num n) = String.ofList n.chars := by
  obtain ⟨raw, compact, sortKeys⟩ := shape
  cases raw <;> cases compact <;> cases sortKeys <;> rfl

theorem text_null : shape.text .null = "null" := by
  obtain ⟨raw, compact, sortKeys⟩ := shape
  cases raw <;> cases compact <;> cases sortKeys <;> rfl

end Shape

def Options.outputOf (o : Options) (line : String) : Outcome :=
  .output (if o.multipleOutputs then .multiple [line] else .single line)

theorem Options.outputOf_inj {o : Options} {line line' : String} :
    o.outputOf line = o.outputOf line' ↔ line = line' := by
  unfold outputOf
  cases o.multipleOutputs <;> simp

theorem Interpreter.filterWith_outputOf {text : String} {j : Json}
    (parsed : Document.ofText text = .json j) (o : Options) (t : Trace Interpreter.World) :
    (filterWith engine text "." o t).1 = o.outputOf (o.shape.text (Value.ofJson j).toJson) := by
  rw [filterWith_evaluated o t Filter.Program.compile_identity parsed,
    Filter.Program.results_identity]
  unfold Outcome.ofItems Options.outputOf
  cases o.multipleOutputs <;> rfl

theorem Value.toJson_ofJson_float (x : Float) : (ofJson (.num (.float x))).toJson = .null ∨
    ∃ y, (ofJson (.num (.float x))).toJson = .num (.float y) := by
  simp only [ofJson, toJson, literalJson, String.toList_ofList]
  rcases Number.chars_float x with null | ⟨n, literal, fractional⟩
  · rw [null]
    exact .inl rfl
  · have read := Json.Numeral.read_complete literal Json.Delimited.nil
    have denoted : n.number? = n.float?.map .float := by
      simp [Json.Numeral.number?, fractional]
    rw [List.append_nil] at read
    simp only [Json.readNumber, read, Bind.bind, Except.bind, denoted]
    cases n.float? with
    | none => exact .inl rfl
    | some y => exact .inr ⟨y, rfl⟩

namespace Document

variable (n : Json.Integer)

theorem ofText_number {v : Number} (denotes : n.numeral.number? = some v) :
    ofText n.text = .json (.num v) := by
  refine ofText_eq_json.mpr ?_
  have spelled : Json.Grammar.Value Json.depthLimit (.num v) n.text.toList :=
    .inl (.number n.literal denotes)
  simpa using Json.Grammar.Padded.mk Json.Grammar.blanks_nil spelled Json.Grammar.blanks_nil

theorem ofText_beyond (none : n.numeral.number? = none) :
    ∃ m, ofText n.text = .invalid (some (Json.Cause.numberOutOfRange.text ++ m)) := by
  obtain ⟨c, cs, text, first⟩ := n.literal.head
  have read := Json.Numeral.read_complete n.literal Json.Delimited.nil
  have other : c ≠ '[' ∧ c ≠ '\x7b' := by
    constructor <;> rintro rfl <;> revert first <;> decide
  rw [List.append_nil, text] at read
  have refused : Json.ofChars n.text.toList =
      .error (.behind .numberOutOfRange (n.numeral.unread ++ [])) := by
    rw [text, Json.ofChars, Json.value_scalar (Json.opens_of_number first).1 other.1 other.2,
      Json.scalar_number first, Json.readNumber, read]
    simp only [Bind.bind, Except.bind, none]
  obtain ⟨m, message⟩ :=
    rejection_eq n.text.toList (.behind .numberOutOfRange (n.numeral.unread ++ []))
  exact ⟨m, by simp only [ofText, Json.ofText, refused, message]; rfl⟩

theorem toText_num (pretty sortKeys : Bool) (v : Number) :
    toText pretty sortKeys (.json (.num v)) = .json (.str (String.ofList v.chars)) := by
  cases pretty <;> cases sortKeys <;> rfl

section Exact

variable {n : Json.Integer} (exact : n.Exact)

include exact

theorem chars_exact : String.ofList (Number.int n.value).chars = n.text := by
  rw [Number.chars, n.intChars_value exact.2.2, String.ofList_toList]

theorem filterWith_exact (o : Options) (t : Trace Interpreter.World) :
    (filterWith Interpreter.engine n.text "." o t).1 = o.outputOf n.text := by
  have inRange : (Number.int n.value).InRange := ⟨exact.1, exact.2.1⟩
  rw [Interpreter.filterWith_outputOf (ofText_number n (n.number?_exact exact)),
    Value.toJson_ofJson_int inRange, Shape.text_num, chars_exact exact]

end Exact

theorem filterWith_float {x : Float} (parsed : ofText n.text = .json (.num (.float x)))
    (o : Options) (t : Trace Interpreter.World) :
    (filterWith Interpreter.engine n.text "." o t).1 ≠ o.outputOf n.text := by
  rw [Interpreter.filterWith_outputOf parsed, ne_eq, Options.outputOf_inj]
  rcases Value.toJson_ofJson_float x with null | ⟨y, float⟩
  · rw [null, Shape.text_null]
    exact n.text_ne_null
  · rw [float, Shape.text_num]
    exact n.text_ne_float y

/-- An integer literal is read as its exact value, written again digit for digit and given back by
the identity filter, if and only if the value fits a word and is not a zero with a sign. -/
theorem ofText_integer (pretty sortKeys : Bool) (o : Options) (t : Trace Interpreter.World) :
    (∀ i, ofText n.text = .json (.num (.int i)) ↔ n.Exact ∧ i = n.value) ∧
      (toText pretty sortKeys (ofText n.text) = .json (.str n.text) ↔ n.Exact) ∧
      ((filterWith Interpreter.engine n.text "." o t).1 = o.outputOf n.text ↔ n.Exact) ∧
      (¬ n.Exact →
        (∃ x, n.numeral.float? = some x ∧ ofText n.text = .json (.num (.float x))) ∨
          n.numeral.float? = none ∧
            ∃ m, ofText n.text = .invalid (some ("number out of range" ++ m))) := by
  by_cases exact : n.Exact
  · have parsed := ofText_number n (n.number?_exact exact)
    refine ⟨fun i => ?_, iff_of_true ?_ exact, iff_of_true (filterWith_exact exact o t) exact,
      fun inexact => absurd exact inexact⟩
    · rw [parsed]
      constructor
      · intro same
        cases same
        exact ⟨exact, rfl⟩
      · rintro ⟨-, rfl⟩
        rfl
    · rw [parsed, toText_num, chars_exact exact]
  · have number := n.number?_inexact exact
    cases float : n.numeral.float? with
    | some x =>
      rw [float] at number
      have parsed := ofText_number n number
      refine ⟨fun i => iff_of_false ?_ fun both => exact both.1, iff_of_false ?_ exact,
        iff_of_false (filterWith_float n parsed o t) exact, fun _ => .inl ⟨x, rfl, parsed⟩⟩
      · rw [parsed]
        intro same
        cases same
      · rw [parsed, toText_num]
        intro same
        injection same with same
        injection same with same
        exact n.text_ne_float x same
    | none =>
      rw [float] at number
      obtain ⟨m, rejected⟩ := ofText_beyond n number
      refine ⟨fun i => iff_of_false ?_ fun both => exact both.1, iff_of_false ?_ exact,
        iff_of_false ?_ exact, fun _ => .inr ⟨rfl, m, rejected⟩⟩
      · rw [rejected]
        intro same
        cases same
      · rw [rejected]
        intro same
        cases same
      · rw [Interpreter.filterWith_unread o t Filter.Program.compile_identity rejected]
        intro same
        cases same

def largest : Json.Integer :=
  ⟨false, "18446744073709551615".toList, ⟨by decide, List.all_eq_true.mp (by decide)⟩,
    by decide⟩

def minusZero : Json.Integer :=
  ⟨true, ['0'], ⟨by decide, List.all_eq_true.mp (by decide)⟩, by decide⟩

theorem ofText_integer_boundaries :
    (largest.Exact ∧ ofText "18446744073709551615" = .json (.num (.int 18446744073709551615)) ∧
      (filterWith Interpreter.engine "18446744073709551615" "." {} ⟨fun _ => .bare, []⟩).1 =
        .output (.single "18446744073709551615")) ∧
    ¬ minusZero.Exact ∧ toText false false (ofText "-0") ≠ .json (.str "-0") := by
  have exact : largest.Exact := ⟨by decide, by decide, by decide⟩
  have inexact : ¬ minusZero.Exact := fun exact => exact.2.2 rfl
  obtain ⟨read, -, filtered, -⟩ := ofText_integer largest false false {} ⟨fun _ => .bare, []⟩
  obtain ⟨-, written, -⟩ := ofText_integer minusZero false false {} ⟨fun _ => .bare, []⟩
  exact ⟨⟨exact, (read _).mpr ⟨exact, rfl⟩, filtered.mpr exact⟩, inexact,
    fun same => inexact (written.mp same)⟩

end Document

end JsonFilter
