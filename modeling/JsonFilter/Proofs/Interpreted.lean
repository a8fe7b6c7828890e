import JsonFilter.Proofs.Engine.Interpreter
import JsonFilter.Proofs.Filter.Ending
import JsonFilter.Proofs.Modes

namespace JsonFilter.Interpreter

variable {text filter : String} {p : Filter.Program} {ds : List Filter.Diagnostic} {j : Json}
  {m : String} (o : Options) (t : Trace World)

theorem validateWith_ok (compiled : Filter.Program.compile filter = .ok p) :
    (validateWith engine filter t).1 = .ok () := by
  simp only [validateWith, Session.create, engine, Session.compile, compile_accepted compiled]

theorem validateWith_error (refused : Filter.Program.compile filter = .error ds) :
    (validateWith engine filter t).1 = .error ⟨.compile, Filter.Diagnostic.joined ds⟩ := by
  simp only [validateWith, Session.create, engine, Session.compile, compile_refused refused]
  rfl

theorem filterWith_refused (refused : Filter.Program.compile filter = .error ds) :
    (filterWith engine text filter o t).1 = .failed ⟨.compile, Filter.Diagnostic.joined ds⟩ := by
  simp only [filterWith_expected, Outcome.expected, engine, compile_refused refused]

theorem filterWith_unread (compiled : Filter.Program.compile filter = .ok p)
    (rejected : Document.ofText text = .invalid (some m)) :
    (filterWith engine text filter o t).1 = .failed ⟨.parse, m⟩ := by
  simp only [filterWith_expected, Outcome.expected, engine, compile_accepted compiled, rejected,
    Option.getD_some]

theorem filterWith_evaluated (compiled : Filter.Program.compile filter = .ok p)
    (parsed : Document.ofText text = .json j) :
    (filterWith engine text filter o t).1 =
      .ofItems o (p.results (t.world 0) j).toList (p.results (t.world 0) j).interruption? := by
  simp only [filterWith_expected, Outcome.expected, engine, compile_accepted compiled, parsed, start]

theorem started?_evaluated (compiled : Filter.Program.compile filter = .ok p)
    (parsed : Document.ofText text = .json j) (w : World) :
    started? engine text filter w = some (p.results (w 0) j) := by
  simp only [started?, engine, compile_accepted compiled, parsed, start]

theorem filterWith_interrupted {i : Interruption} (compiled : Filter.Program.compile filter = .ok p)
    (parsed : Document.ofText text = .json j)
    (ends : p.results (t.world 0) j = .interrupted i) :
    (filterWith engine text filter o t).1 = .interrupted i := by
  rw [filterWith_evaluated o t compiled parsed, ends]
  unfold Outcome.ofItems
  cases o.multipleOutputs <;> rfl

theorem filterWith_halt (parsed : Document.ofText text = .json j) :
    (filterWith engine text "halt" o t).1 = .interrupted (.exit ⟨0, ""⟩) :=
  filterWith_interrupted o t Filter.Program.compile_halt parsed
    (Filter.Program.results_halt (t.world 0) j)

/-- A filter that only calls itself does not end, however patiently it is watched. -/
theorem filterWith_circle {name : String}
    (read : (Filter.Source.parse filter.toList).toOption.bind Filter.Program.circle? = some name)
    (bare : Filter.Resolve.module? name = none) (parsed : Document.ofText text = .json j) :
    (filterWith engine text filter o t).1 = .interrupted .unfinished :=
  filterWith_interrupted o t (Filter.Program.compile_circle read bare) parsed
    (Filter.Program.results_circle (t.world 0) j)

theorem filterWith_haltError {number : String} {code : Int}
    (read : (Filter.Source.parse filter.toList).toOption.bind
      (Filter.Program.numberFor? "halt_error") = some number)
    (whole : (Value.ofNumeral number.toList).asInt = .ok code)
    (parsed : Document.ofText text = .json j) :
    (filterWith engine text filter o t).1 =
      .interrupted (.exit ⟨code, Filter.Native.lastWords (.ofJson j)⟩) :=
  filterWith_interrupted o t (Filter.Program.compile_haltError read) parsed
    (Filter.Program.results_haltError whole (t.world 0) j)

end JsonFilter.Interpreter
