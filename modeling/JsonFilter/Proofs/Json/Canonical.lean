import JsonFilter.Format
import JsonFilter.Proofs.Json.RoundTrip
import JsonFilter.Proofs.Json.Sorted

namespace JsonFilter

theorem Json.chars_inj {j k : Json} (exact : j.Exact) (distinct : j.Distinct) (exact' : k.Exact)
    (distinct' : k.Distinct) {pretty : Bool} (same : j.chars pretty 0 = k.chars pretty 0) :
    j = k := by
  let depth := max j.depth k.depth
  have left := Json.value_chars exact distinct pretty 0 _ (Nat.lt_succ_self _) depth [] .nil
  have right := Json.value_chars exact' distinct' pretty 0 _ (Nat.lt_succ_self _) depth [] .nil
  have read := left.1 (Nat.le_max_left _ _)
  rw [same, right.1 (Nat.le_max_right _ _)] at read
  exact (Prod.mk.inj (Except.ok.inj read)).1.symm

theorem Shape.format_sorted (compact : Bool) (j : Json) :
    Shape.format ⟨false, compact, true⟩ (.json j) =
      .ok (String.ofList (j.sortKeys.chars (!compact) 0)) := by
  cases compact <;> rfl

/-- The sorted text of a document stands for the document up to the order of members. -/
theorem Shape.format_sorted_eq_iff {v w : Json} (exact : v.Exact) (distinct : v.Distinct)
    (exact' : w.Exact) (distinct' : w.Distinct) (compact : Bool) :
    (Shape.format ⟨false, compact, true⟩ (.json v) = Shape.format ⟨false, compact, true⟩ (.json w) ↔
        v.Reordered w) ∧
      Shape.format ⟨false, compact, true⟩ (.json v) =
        Shape.format ⟨false, compact, false⟩ (.json v.sortKeys) ∧
      v.sortKeys.Ascending ∧ v.Reordered v.sortKeys ∧ v.sortKeys.sortKeys = v.sortKeys := by
  refine ⟨⟨?_, ?_⟩, rfl, Json.ascending_sortKeys distinct, Json.reordered_sortKeys v,
    Json.sortKeys_sortKeys distinct⟩
  · intro same
    rw [format_sorted, format_sorted] at same
    have chars := String.ofList_injective (Except.ok.inj same)
    have sorted := Json.chars_inj (Json.exact_sortKeys exact) (Json.distinct_sortKeys distinct)
      (Json.exact_sortKeys exact') (Json.distinct_sortKeys distinct') chars
    exact (Json.reordered_sortKeys v).trans (sorted ▸ (Json.reordered_sortKeys w).symm)
  · intro reordered
    rw [format_sorted, format_sorted, reordered.sortKeys_eq distinct]

/-- The keys of the inner object are the other way round by code units of 16 bits. -/
def Json.forward : Json :=
  .obj [("a", .obj []), ("b", .arr [.obj [("Ａ", .num (.int (-1))), ("😀", .null)], .str "\",\""])]

def Json.backward : Json :=
  .obj [("b", .arr [.obj [("😀", .null), ("Ａ", .num (.int (-1)))], .str "\",\""]), ("a", .obj [])]

theorem Json.forward_backward : Json.forward.Reordered Json.backward := by
  have inner : Json.Reordered (.obj [("Ａ", .num (.int (-1))), ("😀", .null)])
      (.obj [("😀", .null), ("Ａ", .num (.int (-1)))]) :=
    .obj rfl (.cons (.num _) (.cons .null .nil)) (.swap _ _ _)
  have items := Json.Reordered.arr (.cons inner (.cons (.str "\",\"") .nil))
  refine .members (.cons ⟨?_, ?_⟩ (.cons ⟨?_, ?_⟩ .nil)) (.swap _ _ _)
  · rfl
  · exact .refl _
  · rfl
  · exact items

theorem Shape.format_sorted_forward :
    (Json.forward.Exact ∧ Json.forward.Distinct ∧ Json.backward.Exact ∧ Json.backward.Distinct) ∧
      Json.forward.Reordered Json.backward ∧
      Shape.format ⟨false, false, true⟩ (.json Json.forward) =
        Shape.format ⟨false, false, true⟩ (.json Json.backward) := by
  have exact : Json.forward.Exact := by simp [Json.forward, Number.InRange]
  have distinct : Json.forward.Distinct := by
    simp [Json.forward, Members.Distinct, Members.keys]
  have exact' : Json.backward.Exact := by simp [Json.backward, Number.InRange]
  have distinct' : Json.backward.Distinct := by
    simp [Json.backward, Members.Distinct, Members.keys]
  have canonical := (format_sorted_eq_iff exact distinct exact' distinct' false).1
  exact ⟨⟨exact, distinct, exact', distinct'⟩, Json.forward_backward,
    canonical.mpr Json.forward_backward⟩

end JsonFilter
