import JsonFilter.Proofs.Engine.Interpreter
import JsonFilter.Proofs.Filter.Machine
import JsonFilter.Proofs.Json.Numeral
import JsonFilter.Proofs.Json.Part
import JsonFilter.Proofs.Request

namespace JsonFilter

namespace Value

theorem literalJson_int {i : Int} (h : (Number.int i).InRange) :
    literalJson (String.ofList (Number.int i).chars) = .num (.int i) := by
  have read := Json.readNumber_intChars h Json.Delimited.nil
  rw [List.append_nil] at read
  simp only [literalJson, String.toList_ofList, Number.chars, read]

theorem toJson_ofJson_int {i : Int} (h : (Number.int i).InRange) :
    (ofJson (.num (.int i))).toJson = .num (.int i) := by
  by_cases fits : fitsInt i = true
  · simp only [ofJson, fits, if_true, toJson]
  · simp only [ofJson, fits, Bool.false_eq_true, if_false, toJson]
    exact literalJson_int h

theorem toItems_ofItems {xs : List Json} (back : ∀ x ∈ xs, (ofJson x).toJson = x) :
    toItems (ofItems xs) = xs := by
  induction xs with
  | nil => rfl
  | cons x xs ih =>
    have first := back x List.mem_cons_self
    have others := ih fun y hy => back y (List.mem_cons_of_mem x hy)
    rw [ofItems, toItems, first, others]

theorem toMembers_ofMembers {ms : Members Json} (back : ∀ m ∈ ms, (ofJson m.2).toJson = m.2) :
    toMembers (ofMembers ms) = ms := by
  induction ms with
  | nil => rfl
  | cons m ms ih =>
    obtain ⟨k, x⟩ := m
    have first : (ofJson x).toJson = x := back (k, x) List.mem_cons_self
    have others := ih fun n hn => back n (List.mem_cons_of_mem _ hn)
    rw [ofMembers, toMembers, first, others]

theorem toJson_ofJson {j : Json} (exact : j.Exact) : (ofJson j).toJson = j := by
  induction j using Json.parts_induction with
  | null => rfl
  | bool b => rfl
  | str s => rfl
  | num n =>
    cases n with
    | int i => exact toJson_ofJson_int (Json.numbers_num.mp exact)
    | float x => exact (Json.numbers_num.mp exact).elim
  | arr xs ih =>
    have items := Json.numbers_arr.mp exact
    rw [ofJson, toJson, toItems_ofItems fun x hx => ih x hx (items x hx)]
  | obj ms ih =>
    have members := Json.numbers_obj.mp exact
    rw [ofJson, toJson, toMembers_ofMembers fun m hm => ih m hm (members m hm)]

end Value

theorem Interpreter.compile_identity (i : Interpreter) :
    i.compile "." = (.ok (), ⟨some ⟨.identity, 0⟩⟩) :=
  compile_accepted Filter.Program.compile_identity i

theorem Interpreter.start_identity {j : Json} (exact : j.Exact) (setting : Filter.Setting) :
    start ⟨some ⟨.identity, 0⟩⟩ setting (.json j) = .item (.ok j) fun _ => .done := by
  have results := Filter.Program.results_identity setting j
  rw [Value.toJson_ofJson exact] at results
  exact results

/-- The identity filter formats its input, in either mode. -/
theorem filterWith_identity {text : String} {j : Json} (parsed : Document.ofText text = .json j)
    (exact : j.Exact) (o : Options) (t : Trace Interpreter.World) :
    ∃ line, o.shape.format (.json j) = .ok line ∧
      (filterWith Interpreter.engine text "." { o with multipleOutputs := false } t).1 =
        .output (.single line) ∧
      (filterWith Interpreter.engine text "." { o with multipleOutputs := true } t).1 =
        .output (.multiple [line]) ∧
      (Value.ofJson j).toJson = j := by
  have outcome (options : Options) : (filterWith Interpreter.engine text "." options t).1 =
      .ofItems options [.ok j] none := by
    rw [filterWith_expected]
    unfold Outcome.expected
    simp only [Interpreter.engine, Interpreter.compile_identity, parsed,
      Interpreter.start_identity exact]
    rfl
  exact ⟨_, rfl, outcome _, outcome _, Value.toJson_ofJson exact⟩

def extremes : Json :=
  .obj [("z", .arr [.num (.int 18446744073709551615), .num (.int (-9223372036854775808))]),
    ("a", .str "é\n")]

def extremesText : String :=
  " \x7b\"z\": [18446744073709551615, -9223372036854775808], \"a\": \"\\u00e9\\n\"\x7d"

def extremesLine : String :=
  "\x7b\"z\":[18446744073709551615,-9223372036854775808],\"a\":\"é\\n\"\x7d"

theorem ofText_extremes : Document.ofText extremesText = .json extremes := by rfl

theorem filterWith_identity_extremes :
    Document.ofText extremesText = .json extremes ∧ extremes.Exact ∧
      (filterWith Interpreter.engine extremesText "." {} ⟨fun _ => .bare, []⟩).1 =
        .output (.single extremesLine) ∧
      (filterWith Interpreter.engine extremesText "." { multipleOutputs := true }
        ⟨fun _ => .bare, []⟩).1 =
        .output (.multiple [extremesLine]) := by
  have exact : extremes.Exact := by simp [extremes, Number.InRange]
  have printed : Shape.text {} extremes = extremesLine := by rfl
  obtain ⟨_, formatted, single, multiple, -⟩ :=
    filterWith_identity ofText_extremes exact {} ⟨fun _ => .bare, []⟩
  cases formatted
  exact ⟨ofText_extremes, exact, printed ▸ single, printed ▸ multiple⟩

end JsonFilter
