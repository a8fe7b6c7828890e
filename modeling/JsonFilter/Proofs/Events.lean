import JsonFilter.Proofs.Stages

namespace JsonFilter

variable {ω ε : Type}

def closing : Except Interruption (Except Failure Output) → List Event
  | .error _ => []
  | .ok (.ok _) => [.tornDown .done]
  | .ok (.error f) => [.evaluationFailed f.message, .tornDown .failed]

theorem Session.run_events (eng : Engine ω ε) (s : Session ε) {json : String} {j : Json}
    (o : Options) (t : Trace ω) (parsed : Document.ofText json = .json j) :
    (s.run eng json o t).2.events =
      let d := evaluate o (eng.start s.engine (.json j) t.world).1
      t.events ++ d.events ++ closing d.value := by
  simp only [run, parsed]
  rcases (evaluate o _).value with i | f | out
  · exact (List.append_nil _).symm
  · simp only [teardown, Trace.log, closing, List.append_assoc, List.singleton_append]
  · rfl

namespace Interpreter

variable {text filter : String} {p : Filter.Program} {j : Json} (o : Options)
  (t : Trace Interpreter.World)

theorem filterWith_events (compiled : Filter.Program.compile filter = .ok p)
    (parsed : Document.ofText text = .json j) :
    (filterWith engine text filter o t).2.events =
      let d := Session.evaluate o (p.results (t.world 0) j)
      t.events ++ .engineCreated :: (d.events ++ closing d.value) := by
  have same : filterWith engine text filter o t =
      Session.run engine ⟨⟨some p⟩, .compiled⟩ text o (t.log [.engineCreated]) := by
    simp only [filterWith, Session.create, engine, Session.compile, compile_accepted compiled]
  rw [same, Session.run_events engine _ o _ parsed]
  simp only [engine, start, Trace.log, List.append_assoc, List.cons_append,
    List.nil_append]

theorem printed_mem_filterWith_stderr (parsed : Document.ofText text = .json j) :
    .printed (Value.ofJson j).display ∈ (filterWith engine text "stderr" o t).2.events := by
  rw [filterWith_events o t Filter.Program.compile_stderr parsed, Filter.Program.results_stderr]
  unfold Session.evaluate
  cases o.multipleOutputs with
  | true => simp [Stream.collect, Stream.ofResults, Results.drain, Shape.format]
  | false => simp [Stream.first, Stream.next, Stream.ofResults, Stream.pull]

theorem filterWith_stderr (parsed : Document.ofText text = .json j) :
    ∃ out, (filterWith engine text "stderr" o t).1 = .output out := by
  rw [filterWith_evaluated o t Filter.Program.compile_stderr parsed, Filter.Program.results_stderr]
  unfold Outcome.ofItems
  cases o.multipleOutputs <;> exact ⟨_, rfl⟩

end Interpreter

end JsonFilter
