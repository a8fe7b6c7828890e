import JsonFilter.Proofs.Document
import JsonFilter.Proofs.Identity
import JsonFilter.Proofs.Stages

namespace JsonFilter

theorem Shape.text_chars {s : Shape} (quoted : s.raw = false) (j : Json) :
    s.text j = String.ofList ((if s.sortKeys then j.sortKeys else j).chars (!s.compact) 0) := by
  obtain ⟨raw, compact, sortKeys⟩ := s
  cases quoted
  cases compact <;> rfl

theorem Shape.ofText_text {s : Shape} (quoted : s.raw = false) {j : Json} (exact : j.Exact)
    (distinct : j.Distinct) (shallow : j.depth ≤ Json.depthLimit) :
    ∃ k, Document.ofText (s.text j) = .json k ∧ j.Reordered k := by
  rw [text_chars quoted]
  cases s.sortKeys with
  | false =>
    exact ⟨j, (Document.ofText_chars exact distinct _).1 shallow, .refl j⟩
  | true =>
    have exact := Json.exact_sortKeys exact
    have distinct := Json.distinct_sortKeys distinct
    rw [← Json.depth_sortKeys] at shallow
    exact ⟨j.sortKeys, (Document.ofText_chars exact distinct _).1 shallow,
      Json.reordered_sortKeys j⟩

/-- Two texts of one value, each in its shape. -/
structure Shape.Shows (s₁ s₂ : Shape) (v : Json) (x y : String) : Prop where
  left : s₁.format (.json v) = .ok x
  right : s₂.format (.json v) = .ok y
  reread : s₁.raw = false → s₂.raw = false → v.Exact → v.Distinct → v.depth ≤ 127 →
    ∃ j k, Document.ofText x = .json j ∧ Document.ofText y = .json k ∧ j.Reordered k

theorem Shape.shows (s₁ s₂ : Shape) (v : Json) : Shows s₁ s₂ v (s₁.text v) (s₂.text v) where
  left := rfl
  right := rfl
  reread quoted₁ quoted₂ exact distinct shallow := by
    obtain ⟨j, read₁, same₁⟩ := ofText_text quoted₁ exact distinct shallow
    obtain ⟨k, read₂, same₂⟩ := ofText_text quoted₂ exact distinct shallow
    exact ⟨j, k, read₁, read₂, same₁.symm.trans same₂⟩

namespace Outcome

def shown (multiple : Bool) (rs : Results) : List Json :=
  if multiple then Results.values rs.toList else (Results.values rs.toList).take 1

/-- How two requests end that evaluate the same results and write them in two shapes. -/
inductive Alike (s₁ s₂ : Shape) (multiple : Bool) (rs? : Option Results) : Outcome → Outcome → Prop
  | failed (f : Failure) : Alike s₁ s₂ multiple rs? (.failed f) (.failed f)
  | interrupted (i : Interruption) (cut : rs?.bind Results.interruption? = some i) :
    Alike s₁ s₂ multiple rs? (.interrupted i) (.interrupted i)
  | null (single : multiple = false) (empty : rs?.map Results.toList = some []) :
    Alike s₁ s₂ multiple rs? (.output (.single "null")) (.output (.single "null"))
  | output {rs : Results} {vs : List Json} {a b : Output} (started : rs? = some rs)
    (values : vs = shown multiple rs) (left : a.length = vs.length) (right : b.length = vs.length)
    (texts : ∀ (i : Nat) (v : Json), vs[i]? = some v →
      ∃ x y, a.toList[i]? = some x ∧ b.toList[i]? = some y ∧ Shape.Shows s₁ s₂ v x y) :
    Alike s₁ s₂ multiple rs? (.output a) (.output b)

theorem alike_texts {s₁ s₂ : Shape} {multiple : Bool} {rs : Results} {vs : List Json} {a b : Output}
    (values : vs = shown multiple rs) (left : a.toList = vs.map s₁.text)
    (right : b.toList = vs.map s₂.text) :
    Alike s₁ s₂ multiple (some rs) (.output a) (.output b) := by
  refine .output rfl values ?_ ?_ ?_
  · rw [Output.length, left, List.length_map]
  · rw [Output.length, right, List.length_map]
  · intro i v found
    rw [left, right, List.getElem?_map, List.getElem?_map, found]
    exact ⟨_, _, rfl, rfl, Shape.shows s₁ s₂ v⟩

theorem alike_ofItems {o₁ o₂ : Options} (same : o₁.multipleOutputs = o₂.multipleOutputs)
    (rs : Results) : Alike o₁.shape o₂.shape o₁.multipleOutputs (some rs)
      (ofItems o₁ rs.toList rs.interruption?) (ofItems o₂ rs.toList rs.interruption?) := by
  unfold ofItems
  rw [← same]
  cases multiple : o₁.multipleOutputs with
  | true =>
    simp only [if_true]
    cases Results.firstError? rs.toList with
    | some m => exact .failed ⟨.runtime, m⟩
    | none =>
      cases cut : rs.interruption? with
      | some i => exact .interrupted i cut
      | none => exact alike_texts rfl rfl rfl
  | false =>
    simp only [Bool.false_eq_true, if_false]
    rcases items : rs.toList with _ | ⟨m | j, later⟩
    · cases cut : rs.interruption? with
      | some i => exact .interrupted i cut
      | none => exact .null rfl (congrArg some items)
    · exact .failed ⟨.runtime, m⟩
    · have values : [j] = shown false rs := by
        simp only [shown, items, Results.values_ok, Bool.false_eq_true, if_false]
        rfl
      exact alike_texts values rfl rfl

end Outcome

variable {ω ε : Type}

/-- How results are written has no influence on what is evaluated. -/
theorem filterWith_alike (eng : Engine ω ε) (json filter : String) (o₁ o₂ : Options)
    (same : o₁.multipleOutputs = o₂.multipleOutputs) (t : Trace ω) :
    Outcome.Alike o₁.shape o₂.shape o₁.multipleOutputs (started? eng json filter t.world)
      (filterWith eng json filter o₁ t).1 (filterWith eng json filter o₂ t).1 := by
  rcases filterWith_started eng json filter t with ⟨f, -, -, all⟩ | ⟨rs, started, all⟩
  · rw [all, all]
    exact .failed f
  · rw [all, all, started]
    exact Outcome.alike_ofItems same rs

def forwardLine : Options := {}

def sortedPage : Options := { compactOutput := false, sortKeys := true }

theorem filterWith_alike_extremes : forwardLine.multipleOutputs = sortedPage.multipleOutputs ∧
    Outcome.Alike forwardLine.shape sortedPage.shape forwardLine.multipleOutputs
      (started? Interpreter.engine extremesText "." fun _ => .bare)
      (filterWith Interpreter.engine extremesText "." forwardLine ⟨fun _ => .bare, []⟩).1
      (filterWith Interpreter.engine extremesText "." sortedPage ⟨fun _ => .bare, []⟩).1 :=
  ⟨rfl, filterWith_alike Interpreter.engine extremesText "." forwardLine sortedPage rfl
    ⟨fun _ => .bare, []⟩⟩

/-- Requests that differ in a shape can both end the process, and so neither fail nor succeed. -/
theorem halt_neither_both_failed_nor_both_output :
    ({} : Options).multipleOutputs = ({ rawOutput := true } : Options).multipleOutputs ∧
      ¬((∃ f, (filterWith Interpreter.engine "null" "halt" {} ⟨fun _ => .bare, []⟩).1 = .failed f ∧
          (filterWith Interpreter.engine "null" "halt" { rawOutput := true } ⟨fun _ => .bare, []⟩).1 =
            .failed f) ∨
        ∃ a b, (filterWith Interpreter.engine "null" "halt" {} ⟨fun _ => .bare, []⟩).1 = .output a ∧
          (filterWith Interpreter.engine "null" "halt" { rawOutput := true } ⟨fun _ => .bare, []⟩).1 =
            .output b) := by
  have parsed : Document.ofText "null" = .json .null := by rfl
  refine ⟨rfl, ?_⟩
  rw [Interpreter.filterWith_halt {} ⟨fun _ => .bare, []⟩ parsed]
  rintro (⟨f, same, -⟩ | ⟨a, b, same, -⟩)
  · cases same
  · cases same

end JsonFilter
