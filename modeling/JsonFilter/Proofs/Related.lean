import Mathlib.Data.List.Forall2

namespace JsonFilter

variable {α β : Type} {R : α → β → Prop} {xs : List α} {ys : List β}

theorem forall₂_mem_left (h : List.Forall₂ R xs ys) {x : α} (hx : x ∈ xs) : ∃ y ∈ ys, R x y := by
  induction h with
  | nil => cases hx
  | cons first _ ih =>
    rcases List.mem_cons.mp hx with rfl | hx
    · exact ⟨_, List.mem_cons_self, first⟩
    · obtain ⟨y, hy, related⟩ := ih hx
      exact ⟨y, List.mem_cons_of_mem _ hy, related⟩

theorem forall₂_mem_right (h : List.Forall₂ R xs ys) {y : β} (hy : y ∈ ys) : ∃ x ∈ xs, R x y :=
  forall₂_mem_left (List.Forall₂.flip h) hy

theorem exists_forall₂ (each : ∀ y ∈ ys, ∃ x, R x y) : ∃ xs, List.Forall₂ R xs ys := by
  induction ys with
  | nil => exact ⟨[], .nil⟩
  | cons y ys ih =>
    obtain ⟨⟨x, first⟩, each⟩ := List.forall_mem_cons.mp each
    obtain ⟨xs, others⟩ := ih each
    exact ⟨x :: xs, .cons first others⟩

theorem forall₂_with_mem (h : List.Forall₂ R xs ys) :
    List.Forall₂ (fun x y => x ∈ xs ∧ R x y) xs ys :=
  (List.forall₂_and_left xs ys).mpr ⟨fun _ hx => hx, h⟩

theorem forall₂_unique (each : ∀ x ∈ xs, ∀ y z, R x y → R x z → y = z) {zs : List β}
    (h : List.Forall₂ R xs ys) (h' : List.Forall₂ R xs zs) : ys = zs :=
  List.right_unique_forall₂' (fun x y z hy hz => each x hy.1 y z hy.2 hz.2) (forall₂_with_mem h)
    (forall₂_with_mem h')

section

variable {R : α → α → Prop} {xs ys zs : List α}

theorem forall₂_swap (h : List.Forall₂ R xs ys) (symm : ∀ x ∈ xs, ∀ y, R x y → R y x) :
    List.Forall₂ R ys xs :=
  List.Forall₂.flip ((forall₂_with_mem h).imp fun x y both => symm x both.1 y both.2)

theorem map_eq_of_forall₂ {f : α → β} (h : List.Forall₂ R xs ys)
    (same : ∀ x ∈ xs, ∀ y, R x y → f x = f y) : xs.map f = ys.map f := by
  have equal := (forall₂_with_mem h).imp fun x y both => same x both.1 y both.2
  rwa [← List.forall₂_map_right_iff, ← List.forall₂_map_left_iff, List.forall₂_eq_eq_eq] at equal

theorem forall₂_trans (h : List.Forall₂ R xs ys) (h' : List.Forall₂ R ys zs)
    (trans : ∀ x ∈ xs, ∀ y z, R x y → R y z → R x z) : List.Forall₂ R xs zs := by
  induction h generalizing zs with
  | nil => exact h'
  | cons first _ ih =>
    cases h' with
    | cons second rest =>
      exact .cons (trans _ List.mem_cons_self _ _ first second)
        (ih rest fun x hx => trans x (List.mem_cons_of_mem _ hx))

end

end JsonFilter
