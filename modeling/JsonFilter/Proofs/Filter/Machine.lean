import JsonFilter.Filter.Program

namespace JsonFilter

theorem Json.size_pos (j : Json) : 0 < j.size := by
  cases j <;> exact Nat.succ_pos _

namespace Filter

theorem Program.compile_identity : compile "." = .ok ⟨.identity, 0⟩ := rfl

namespace Machine

theorem results_identity (lib : Library) (host : Host) (v : Value) (steps : Nat) :
    (start .identity [] v).results lib host (steps + 3) = .item (.ok v.toJson) fun _ => .done := rfl

end Machine

namespace Program

theorem exists_watched (s : Setting) (input : Json) : ∃ steps, watched s input = steps + 4 := by
  have parts := input.size_pos
  refine ⟨watched s input - 4, ?_⟩
  unfold watched
  omega

theorem results_identity (s : Setting) (input : Json) :
    results ⟨.identity, 0⟩ s input = .item (.ok (Value.ofJson input).toJson) fun _ => .done := by
  obtain ⟨steps, enough⟩ := exists_watched s input
  rw [results, enough]
  exact Machine.results_identity library s.host (.ofJson input) (steps + 1)

end Program

end Filter

end JsonFilter
