import JsonFilter.Members
import JsonFilter.Proofs.Text.Utf8
import Mathlib.Data.List.Forall2

namespace JsonFilter.Members

variable {α β : Type}

theorem forall₂_iff {R : α → β → Prop} {ms : Members α} {ns : Members β} :
    List.Forall₂ (fun m n => m.1 = n.1 ∧ R m.2 n.2) ms ns ↔
      ms.keys = ns.keys ∧ List.Forall₂ R ms.values ns.values := by
  induction ms generalizing ns with
  | nil => cases ns <;> simp [keys, values]
  | cons m ms ih =>
    cases ns with
    | nil => simp [keys, values]
    | cons n ns =>
      rw [List.forall₂_cons, ih]
      simp only [keys, values, List.map_cons, List.cons.injEq, List.forall₂_cons]
      constructor
      · rintro ⟨⟨key, value⟩, keys, values⟩
        exact ⟨⟨key, keys⟩, value, values⟩
      · rintro ⟨⟨key, keys⟩, value, values⟩
        exact ⟨⟨key, value⟩, keys, values⟩

/-- The keys strictly ascend in the byte order of UTF-8. -/
def Ascending (ms : Members α) : Prop :=
  ms.keys.Pairwise fun a b => Utf8.encode a < Utf8.encode b

theorem ascending_iff {ms : Members α} :
    ms.Ascending ↔ ms.Pairwise fun a b => Utf8.encode a.1 < Utf8.encode b.1 := by
  rw [Ascending, keys, List.pairwise_map]

theorem Ascending.distinct {ms : Members α} (h : ms.Ascending) : ms.Distinct :=
  List.Pairwise.imp (fun less => by rintro rfl; exact lt_irrefl _ less) h

theorem put_new {ms : Members α} {key : String} (new : key ∉ ms.keys) (value : α) :
    ms.put key value = ms ++ [(key, value)] := by
  induction ms with
  | nil => rfl
  | cons m ms ih =>
    obtain ⟨k, v⟩ := m
    obtain ⟨other, rest⟩ := not_or.mp (fun h => new (List.mem_cons.mpr h))
    have different : k ≠ key := fun same => other same.symm
    simp only [put, different, if_false, ih rest, List.cons_append]

theorem Distinct.put_cons {acc ms : Members α} {key : String} {value : α}
    (h : Distinct (acc ++ (key, value) :: ms)) : acc.put key value = acc ++ [(key, value)] := by
  apply put_new
  intro member
  simp only [Distinct, keys, List.map_append, List.map_cons, List.nodup_append] at h member
  exact h.2.2 key member key List.mem_cons_self rfl

theorem Distinct.perm {ms ns : Members α} (h : ms.Distinct) (perm : ms.Perm ns) : ns.Distinct :=
  (perm.map Prod.fst).nodup_iff.mp h

theorem sorted_perm (ms : Members α) : ms.sorted.Perm ms := List.mergeSort_perm ms _

theorem sorted_pairwise (ms : Members α) : ms.sorted.Pairwise fun a b => a.1 ≤ b.1 := by
  have trans : ∀ a b c : String × α, decide (a.1 ≤ b.1) → decide (b.1 ≤ c.1) →
      decide (a.1 ≤ c.1) := by
    intro a b c ab bc
    exact decide_eq_true (String.le_trans (of_decide_eq_true ab) (of_decide_eq_true bc))
  have total : ∀ a b : String × α, decide (a.1 ≤ b.1) || decide (b.1 ≤ a.1) := by
    intro a b
    simpa using String.le_total a.1 b.1
  exact (List.pairwise_mergeSort trans total ms).imp of_decide_eq_true

theorem ascending_sorted {ms : Members α} (h : ms.Distinct) : ms.sorted.Ascending := by
  have distinct : ms.sorted.Distinct := h.perm ms.sorted_perm.symm
  have different := List.pairwise_map.mp distinct
  have strict := ms.sorted_pairwise.imp₂ (fun a b le ne => lt_of_le_of_ne le ne) different
  exact ascending_iff.mpr (strict.imp Utf8.encode_lt_encode.mpr)

theorem Ascending.eq_of_perm {ms ns : Members α} (hm : ms.Ascending) (hn : ns.Ascending)
    (perm : ms.Perm ns) : ms = ns :=
  perm.eq_of_pairwise (fun _ _ _ _ ab ba => absurd ba (lt_asymm ab)) (ascending_iff.mp hm)
    (ascending_iff.mp hn)

theorem sorted_eq_of_perm {ms ns : Members α} (h : ms.Distinct) (perm : ms.Perm ns) :
    ms.sorted = ns.sorted :=
  (ascending_sorted h).eq_of_perm (ascending_sorted (h.perm perm))
    (ms.sorted_perm.trans (perm.trans ns.sorted_perm.symm))

end JsonFilter.Members
