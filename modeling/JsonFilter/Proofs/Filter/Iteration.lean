import JsonFilter.Proofs.Filter.Machine

namespace JsonFilter

namespace Value

theorem ofItems_eq_map (xs : List Json) : ofItems xs = xs.map ofJson := by
  induction xs with
  | nil => rfl
  | cons x xs ih => rw [ofItems, List.map_cons, ih]

theorem values_ofMembers (ms : Members Json) :
    Members.values (ofMembers ms) = (Members.values ms).map ofJson := by
  induction ms with
  | nil => rfl
  | cons m ms ih => exact congrArg (ofJson m.2 :: ·) ih

end Value

namespace Json

theorem length_le_sizeItems (xs : List Json) : xs.length ≤ sizeItems xs := by
  induction xs with
  | nil => exact Nat.le_refl 0
  | cons x xs ih =>
    have first := x.size_pos
    rw [sizeItems, List.length_cons]
    omega

theorem length_le_sizeMembers (ms : Members Json) : ms.length ≤ sizeMembers ms := by
  induction ms with
  | nil => exact Nat.le_refl 0
  | cons m ms ih =>
    have first := m.2.size_pos
    rw [sizeMembers, List.length_cons]
    omega

def parts? : Json → Option (List Json)
  | .arr xs => some xs
  | .obj ms => some (Members.values ms)
  | _ => none

theorem length_parts {j : Json} {xs : List Json} (parts : j.parts? = some xs) :
    xs.length < j.size := by
  cases j with
  | arr ys =>
    cases parts
    exact Nat.lt_succ_of_le (length_le_sizeItems _)
  | obj ms =>
    cases parts
    have values : (Members.values ms).length = ms.length := List.length_map Prod.snd
    rw [values]
    exact Nat.lt_succ_of_le (length_le_sizeMembers ms)
  | _ => cases parts

end Json

theorem Value.elements_ofJson {j : Json} {xs : List Json} (parts : j.parts? = some xs) :
    (ofJson j).elements = .ok (xs.map ofJson) := by
  cases j with
  | arr ys =>
    cases parts
    rw [ofJson, elements, ofItems_eq_map]
  | obj ms =>
    cases parts
    rw [ofJson, elements, values_ofMembers]
  | _ => cases parts

theorem Value.elements_refused {j : Json} (none : j.parts? = none) :
    (ofJson j).elements = .error (.mismatch (ofJson j) .iterable) := by
  cases j with
  | num n =>
    cases n with
    | int i =>
      rw [ofJson]
      split <;> rfl
    | float x => rfl
  | arr | obj => cases none
  | _ => rfl

namespace Filter

def Code.iteration : Code := .path .identity none [.range none none false]

theorem Program.compile_iteration : compile ".[]" = .ok ⟨Code.iteration, 0⟩ := rfl

namespace Machine

def through (labels : Nat) (vs : List Value) : Machine :=
  { focus := .values vs, konts := [.steps [] []], labels }

variable (lib : Library) (host : Host) (labels : Nat)

theorem results_through_cons (v w : Value) (vs : List Value) (fuel : Nat) :
    (through labels (v :: w :: vs)).results lib host (fuel + 4) =
      .item (.ok v.toJson) fun _ => (through labels (w :: vs)).results lib host fuel := rfl

theorem results_through (vs : List Value) {fuel : Nat} (enough : 4 * vs.length + 2 ≤ fuel) :
    (through labels vs).results lib host fuel = .ofList (vs.map fun v => .ok v.toJson) := by
  induction vs generalizing fuel with
  | nil =>
    obtain ⟨fuel, rfl⟩ : ∃ n, fuel = n + 2 := ⟨fuel - 2, by omega⟩
    rfl
  | cons v vs ih =>
    rw [List.length_cons] at enough
    cases vs with
    | nil =>
      obtain ⟨fuel, rfl⟩ : ∃ n, fuel = n + 5 := ⟨fuel - 5, by omega⟩
      rfl
    | cons w vs =>
      obtain ⟨fuel, rfl⟩ : ∃ n, fuel = n + 4 := ⟨fuel - 4, by omega⟩
      have later := ih (show 4 * (w :: vs).length + 2 ≤ fuel by omega)
      rw [results_through_cons, later]
      rfl

theorem results_iteration_start (v : Value) (fuel : Nat) :
    (start Code.iteration [] v).results lib host (fuel + 2) = results lib host fuel
      { focus := .deliver v, konts := [.indices none [.range none none false] [] v] } := rfl

theorem results_iteration {v : Value} {vs : List Value} (parts : v.elements = .ok vs) {fuel : Nat}
    (enough : 4 * vs.length + 5 ≤ fuel) :
    (start Code.iteration [] v).results lib host fuel = .ofList (vs.map fun v => .ok v.toJson) := by
  obtain ⟨fuel, rfl⟩ : ∃ n, fuel = n + 1 + 2 := ⟨fuel - 3, by omega⟩
  have taken : part (.range none none false) [] v = .ok vs := parts
  rw [results_iteration_start, results]
  simp only [step, proceed, follow, taken]
  rcases vs with _ | ⟨w, _ | ⟨w', vs⟩⟩
  · exact results_through lib host 0 [] (by simpa using enough)
  · -- a value that is alone is delivered at once
    have short : 4 * [w].length + 2 ≤ fuel + 1 := by
      rw [List.length_singleton] at enough ⊢
      omega
    exact results_through lib host 0 [w] short
  · exact results_through lib host 0 (w :: w' :: vs) (by omega)

theorem results_iteration_refused {v : Value} {e : EvalError} (refused : v.elements = .error e)
    (fuel : Nat) : (start Code.iteration [] v).results lib host (fuel + 4) =
      .ofList [.error e.message] := by
  have taken : part (.range none none false) [] v = .error e := refused
  rw [results_iteration_start, results]
  simp only [step, proceed, follow, taken]
  rfl

end Machine

namespace Program

variable {input : Json}

theorem results_iteration {xs : List Json} (parts : input.parts? = some xs) (s : Setting) :
    results ⟨Code.iteration, 0⟩ s input = .ofList (xs.map fun x => .ok (Value.ofJson x).toJson) := by
  have enough : 4 * (xs.map Value.ofJson).length + 5 ≤ watched s input := by
    have shorter := Json.length_parts parts
    rw [List.length_map, watched]
    omega
  have all := Machine.results_iteration library s.host (Value.elements_ofJson parts) enough
  rw [List.map_map] at all
  exact all

theorem results_iteration_refused (none : input.parts? = none) (s : Setting) :
    results ⟨Code.iteration, 0⟩ s input = .ofList [.error
      ("cannot use " ++ (Value.ofJson input).text ++ " as " ++ "iterable (array or object)")] := by
  obtain ⟨fuel, enough⟩ := exists_watched s input
  rw [results, enough]
  exact Machine.results_iteration_refused library s.host (Value.elements_refused none) fuel

end Program

end Filter

end JsonFilter
