import JsonFilter.Proofs.Filter.Iteration
import JsonFilter.Proofs.Identity
import JsonFilter.Proofs.RepeatedKeys
import JsonFilter.Proofs.Stages

namespace JsonFilter

open Json (Source)
open Json.Source (Resolved)

namespace Json

theorem exact_part {j : Json} (exact : j.Exact) {xs : List Json} (parts : j.parts? = some xs)
    {x : Json} (member : x ∈ xs) : x.Exact := by
  intro n part
  cases j with
  | arr ys =>
    cases parts
    exact exact n (.item member part)
  | obj ms =>
    cases parts
    obtain ⟨m, listed, rfl⟩ := List.mem_map.mp member
    exact exact n (.value listed part)
  | _ => cases parts

end Json

theorem Shape.mapM_format (shape : Shape) (xs : List Json) :
    (xs.mapM fun x => shape.format (.json x)) = .ok (xs.map shape.text) := by
  induction xs with
  | nil => rfl
  | cons x xs ih =>
    rw [List.mapM_cons, ih]
    rfl

namespace Results

theorem firstError?_values (xs : List Json) : firstError? (xs.map .ok) = none := by
  induction xs with
  | nil => rfl
  | cons x xs ih => exact ih

theorem values_values (xs : List Json) : values (xs.map .ok) = xs := by
  induction xs with
  | nil => rfl
  | cons x xs ih => exact congrArg (x :: ·) ih

end Results

theorem Outcome.ofItems_values (o : Options) (xs : List Json) :
    ofItems o (xs.map .ok) none = .output (if o.multipleOutputs then
        .multiple (xs.map o.shape.text) else .single ((xs.map o.shape.text).headD "null")) := by
  unfold ofItems
  cases o.multipleOutputs with
  | true => simp only [if_true, Results.firstError?_values, Results.values_values]
  | false => cases xs <;> rfl

namespace Interpreter

variable {text : String} {j : Json} (parsed : Document.ofText text = .json j) (o : Options)
  (t : Trace Interpreter.World)

include parsed

theorem filterWith_parts {xs : List Json} (parts : j.parts? = some xs) (exact : j.Exact) :
    (filterWith engine text ".[]" o t).1 = .output (if o.multipleOutputs then
        .multiple (xs.map o.shape.text) else .single ((xs.map o.shape.text).headD "null")) := by
  have unchanged : (xs.map fun x => Except.ok (ε := String) (Value.ofJson x).toJson) =
      xs.map .ok :=
    List.map_congr_left fun x member =>
      congrArg Except.ok (Value.toJson_ofJson (Json.exact_part exact parts member))
  rw [filterWith_evaluated o t Filter.Program.compile_iteration parsed,
    Filter.Program.results_iteration parts, Results.toList_ofList, Results.interruption?_ofList,
    unchanged]
  exact Outcome.ofItems_values o xs

theorem filterWith_no_parts (none : j.parts? = none) :
    (filterWith engine text ".[]" o t).1 = .failed ⟨.runtime,
      "cannot use " ++ (Value.ofJson j).text ++ " as " ++ "iterable (array or object)"⟩ := by
  rw [filterWith_evaluated o t Filter.Program.compile_iteration parsed,
    Filter.Program.results_iteration_refused none]
  unfold Outcome.ofItems
  cases o.multipleOutputs <;> rfl

end Interpreter

/-- Iterating over a container gives one text for each of its parts, in order; the members of an
object stand in the order in which the text has their keys first. Nothing else can be iterated. -/
theorem filterWith_iteration {text : String} {j : Json} (parsed : Document.ofText text = .json j)
    (o : Options) (t : Trace Interpreter.World) :
    let request (multiple : Bool) :=
      (filterWith Interpreter.engine text ".[]" { o with multipleOutputs := multiple } t).1
    (∀ xs, j.parts? = some xs → j.Exact → ∃ lines,
      (xs.mapM fun x => o.shape.format (.json x)) = .ok lines ∧ lines.length = xs.length ∧
      request true = .output (.multiple lines) ∧
      request false = .output (.single (lines.headD "null"))) ∧
    (∀ ms, j = .obj ms → j.parts? = some (Members.values ms) ∧
      ∃ written, (∀ s : Source, s.Written text ↔ s = .obj written) ∧ Resolved written ms) ∧
    (j.kind ∈ [Json.Kind.null, .boolean, .number, .string] →
      ∃ m, request true = .failed ⟨.runtime, m⟩ ∧ request false = .failed ⟨.runtime, m⟩) := by
  intro request
  refine ⟨fun xs parts exact => ?_, ?_, fun scalar => ?_⟩
  · refine ⟨_, o.shape.mapM_format xs, List.length_map _, ?_, ?_⟩
    · exact Interpreter.filterWith_parts parsed { o with multipleOutputs := true } t parts exact
    · exact Interpreter.filterWith_parts parsed { o with multipleOutputs := false } t parts exact
  · rintro ms rfl
    obtain ⟨s, written, denotes⟩ := Document.exists_written parsed
    obtain ⟨pairs, rfl⟩ := denotes.obj_right
    refine ⟨rfl, pairs, fun s' => ⟨fun written' => written'.unique written, ?_⟩, denotes.resolved⟩
    rintro rfl
    exact written
  · have none : j.parts? = none := by
      cases j with
      | arr | obj => simp [Json.kind] at scalar
      | _ => rfl
    exact ⟨_, Interpreter.filterWith_no_parts parsed _ t none,
      Interpreter.filterWith_no_parts parsed _ t none⟩

def partsText : String := "\x7b\"b\": [1], \"a\": 18446744073709551615, \"b\": \"x\\n\"\x7d"

def partsDocument : Json := .obj [("b", .str "x\n"), ("a", .num (.int 18446744073709551615))]

theorem filterWith_iteration_members :
    Document.ofText partsText = .json partsDocument ∧ partsDocument.Exact ∧
      (filterWith Interpreter.engine partsText ".[]" { multipleOutputs := true }
        ⟨fun _ => .bare, []⟩).1 =
        .output (.multiple ["\"x\\n\"", "18446744073709551615"]) ∧
      (filterWith Interpreter.engine partsText ".[]" { rawOutput := true } ⟨fun _ => .bare, []⟩).1 =
        .output (.single "x\n") := by
  have parsed : Document.ofText partsText = .json partsDocument := by rfl
  have exact : partsDocument.Exact := by simp [partsDocument, Number.InRange]
  obtain ⟨quoted, -, -⟩ := filterWith_iteration parsed {} ⟨fun _ => .bare, []⟩
  obtain ⟨raw, -, -⟩ := filterWith_iteration parsed { rawOutput := true } ⟨fun _ => .bare, []⟩
  obtain ⟨_, formatted, -, all, -⟩ := quoted _ rfl exact
  obtain ⟨_, formatted', -, -, one⟩ := raw _ rfl exact
  cases formatted
  cases formatted'
  exact ⟨parsed, exact, all, one⟩

end JsonFilter
