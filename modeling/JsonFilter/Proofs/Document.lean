import JsonFilter.Proofs.Json.RoundTrip
import JsonFilter.Proofs.Json.Sorted

namespace JsonFilter.Document

theorem toText_json (pretty sortKeys : Bool) (j : Json) :
    toText pretty sortKeys (.json j) =
      .json (.str (String.ofList ((if sortKeys then j.sortKeys else j).chars pretty 0))) := by
  cases pretty <;> rfl

theorem rejection_eq (text : List Char) (f : Json.Fault) :
    ∃ m, rejection text f = f.cause.text ++ m := by
  simp only [rejection, Json.Fault.message, Json.located, String.append_assoc]
  exact ⟨_, rfl⟩

theorem ofText_chars {j : Json} (exact : j.Exact) (distinct : j.Distinct) (pretty : Bool) :
    (j.depth ≤ Json.depthLimit → ofText (String.ofList (j.chars pretty 0)) = .json j) ∧
      (Json.depthLimit < j.depth → ∃ m, ofText (String.ofList (j.chars pretty 0)) =
        .invalid (some (Json.Cause.depthLimit.text ++ m))) := by
  obtain ⟨read, refused⟩ := Json.ofChars_chars exact distinct pretty
  constructor
  · intro shallow
    simp only [ofText, Json.ofText, String.toList_ofList, read shallow]
  · intro deep
    obtain ⟨f, error, cause⟩ := refused deep
    obtain ⟨m, message⟩ := rejection_eq (j.chars pretty 0) f
    refine ⟨m, ?_⟩
    simp only [ofText, Json.ofText, String.toList_ofList, error, message, cause]

/-- Writing and reading again: what is read is the document, with its keys in ascending order at
every depth if they were sorted, unless it nests deeper than a reader follows. -/
theorem ofText_toText {j : Json} (exact : j.Exact) (distinct : j.Distinct)
    (pretty sortKeys : Bool) :
    ∃ text, toText pretty sortKeys (.json j) = .json (.str text) ∧
      (j.depth ≤ 127 → ofText text = .json (if sortKeys then j.sortKeys else j)) ∧
      (128 ≤ j.depth → ∃ m, ofText text = .invalid (some ("recursion limit exceeded" ++ m))) ∧
      j.Reordered j.sortKeys ∧ j.sortKeys.Ascending := by
  let written := if sortKeys then j.sortKeys else j
  have facts : written.Exact ∧ written.Distinct ∧ written.depth = j.depth := by
    cases sortKeys with
    | false => exact ⟨exact, distinct, rfl⟩
    | true =>
      exact ⟨Json.exact_sortKeys exact, Json.distinct_sortKeys distinct, Json.depth_sortKeys j⟩
  obtain ⟨exactWritten, distinctWritten, depth⟩ := facts
  obtain ⟨read, refused⟩ := ofText_chars exactWritten distinctWritten pretty
  rw [depth] at read refused
  exact ⟨_, toText_json pretty sortKeys j, read, refused, Json.reordered_sortKeys j,
    Json.ascending_sortKeys distinct⟩

def mixed : Json :=
  .obj [("é", .arr [.num (.int 18446744073709551615), .obj []]), ("\"\u0000", .str "\\\u001f😀"),
    ("", .num (.int (-9223372036854775808)))]

def nested : Nat → Json
  | 0 => .arr []
  | n + 1 => .arr [nested n]

theorem nested_exact (n : Nat) : (nested n).Exact := by
  induction n with
  | zero => simp [nested]
  | succ n ih => simpa [nested] using ih

theorem nested_distinct (n : Nat) : (nested n).Distinct := by
  induction n with
  | zero => simp [nested]
  | succ n ih => simpa [nested] using ih

theorem nested_depth (n : Nat) : (nested n).depth = n + 1 := by
  induction n with
  | zero => rfl
  | succ n ih => rw [nested, Json.depth, Json.depthItems, Json.depthItems, ih, Nat.max_zero]

theorem mixed_ofText_toText :
    (mixed.Exact ∧ mixed.Distinct ∧ mixed.depth ≤ 127 ∧
      ∃ text, toText true true (.json mixed) = .json (.str text) ∧
        ofText text = .json mixed.sortKeys) ∧
    (128 ≤ (nested 127).depth ∧
      ∃ text m, toText false false (.json (nested 127)) = .json (.str text) ∧
        ofText text = .invalid (some ("recursion limit exceeded" ++ m))) := by
  have exact : mixed.Exact := by simp [mixed, Number.InRange]
  have distinct : mixed.Distinct := by simp [mixed, Members.Distinct, Members.keys]
  have shallow : mixed.depth ≤ 127 := by decide
  have deep : 128 ≤ (nested 127).depth := by rw [nested_depth]
  obtain ⟨text, written, read, -⟩ := ofText_toText exact distinct true true
  obtain ⟨text', written', -, refused, -⟩ :=
    ofText_toText (nested_exact 127) (nested_distinct 127) false false
  obtain ⟨m, rejected⟩ := refused deep
  exact ⟨⟨exact, distinct, shallow, text, written, read shallow⟩, deep, text', m, written', rejected⟩

end JsonFilter.Document
