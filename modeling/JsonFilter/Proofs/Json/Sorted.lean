import JsonFilter.Proofs.Json.Reordered

namespace JsonFilter.Json

theorem sortItems_eq_map (xs : List Json) : sortItems xs = xs.map sortKeys := by
  induction xs with
  | nil => rfl
  | cons x xs ih => rw [sortItems, ih, List.map_cons]

theorem sortMembers_eq_mapValues (ms : Members Json) :
    sortMembers ms = ms.mapValues sortKeys := by
  induction ms with
  | nil => rfl
  | cons m ms ih =>
    obtain ⟨k, x⟩ := m
    rw [sortMembers, ih]
    rfl

theorem sortKeys_arr (xs : List Json) : (Json.arr xs).sortKeys = .arr (xs.map sortKeys) := by
  rw [sortKeys, sortItems_eq_map]

theorem sortKeys_obj (ms : Members Json) :
    (Json.obj ms).sortKeys = .obj (ms.mapValues sortKeys).sorted := by
  rw [sortKeys, sortMembers_eq_mapValues]

theorem keys_mapValues (f : Json → Json) (ms : Members Json) : (ms.mapValues f).keys = ms.keys := by
  simp [Members.keys, Members.mapValues, Function.comp_def]

theorem mem_mapValues {f : Json → Json} {ms : Members Json} {m : String × Json}
    (h : m ∈ ms.mapValues f) : ∃ n ∈ ms, m.2 = f n.2 := by
  obtain ⟨n, hn, rfl⟩ := List.mem_map.mp h
  exact ⟨n, hn, rfl⟩

theorem reordered_sortKeys (j : Json) : Reordered j j.sortKeys := by
  induction j using parts_induction with
  | null => exact .null
  | bool b => exact .bool b
  | num n => exact .num n
  | str s => exact .str s
  | arr xs ih =>
    rw [sortKeys_arr]
    exact .arr (List.forall₂_map_right_iff.mpr (List.forall₂_same.mpr ih))
  | obj ms ih =>
    rw [sortKeys_obj]
    have values : MembersReordered ms (ms.mapValues sortKeys) :=
      List.forall₂_map_right_iff.mpr (List.forall₂_same.mpr fun m hm => ⟨rfl, ih m hm⟩)
    exact .members values (Members.sorted_perm _).symm

theorem Reordered.sortKeys_eq {v w : Json} (h : Reordered v w) (distinct : Distinct v) :
    v.sortKeys = w.sortKeys := by
  induction v using parts_induction generalizing w with
  | null => cases h; rfl
  | bool b => cases h; rfl
  | num n => cases h; rfl
  | str s => cases h; rfl
  | arr xs ih =>
    have distinct := objects_arr.mp distinct
    cases h with
    | arr items =>
      rw [sortKeys_arr, sortKeys_arr,
        map_eq_of_forall₂ items fun x hx y same => ih x hx same (distinct x hx)]
  | obj ms ih =>
    obtain ⟨keys, distinct⟩ := objects_obj.mp distinct
    obtain ⟨ns, ps, members, perm, rfl⟩ := h.obj_inv
    have values : ms.mapValues Json.sortKeys = ns.mapValues Json.sortKeys :=
      map_eq_of_forall₂ members fun m hm n same =>
        Prod.ext same.1 (ih m hm same.2 (distinct m hm))
    have unsorted : Members.Distinct (ns.mapValues Json.sortKeys) := by
      rw [← values, Members.Distinct, keys_mapValues]
      exact keys
    rw [sortKeys_obj, sortKeys_obj, values, Members.sorted_eq_of_perm unsorted (perm.map _)]
    rfl

theorem ascending_sortKeys {j : Json} (distinct : Distinct j) : Ascending j.sortKeys := by
  induction j using parts_induction with
  | null => exact objects_null
  | bool b => exact objects_bool b
  | num n => exact objects_num n
  | str s => exact objects_str s
  | arr xs ih =>
    have distinct := objects_arr.mp distinct
    rw [sortKeys_arr]
    refine objects_arr.mpr fun y hy => ?_
    obtain ⟨x, hx, rfl⟩ := List.mem_map.mp hy
    exact ih x hx (distinct x hx)
  | obj ms ih =>
    obtain ⟨keys, distinct⟩ := objects_obj.mp distinct
    rw [sortKeys_obj]
    refine objects_obj.mpr ⟨Members.ascending_sorted ?_, ?_⟩
    · rw [Members.Distinct, keys_mapValues]
      exact keys
    · intro m hm
      obtain ⟨n, hn, value⟩ := mem_mapValues ((Members.sorted_perm _).mem_iff.mp hm)
      rw [value]
      exact ih n hn (distinct n hn)

theorem sortKeys_sortKeys {j : Json} (distinct : Distinct j) : j.sortKeys.sortKeys = j.sortKeys :=
  ((reordered_sortKeys j).sortKeys_eq distinct).symm

theorem distinct_sortKeys {j : Json} (distinct : Distinct j) : Distinct j.sortKeys :=
  fun ms part => (ascending_sortKeys distinct ms part).distinct

theorem exact_sortKeys {j : Json} (exact : Exact j) : Exact j.sortKeys :=
  (reordered_sortKeys j).numbers exact

theorem depth_sortKeys (j : Json) : j.sortKeys.depth = j.depth :=
  (reordered_sortKeys j).depth_eq.symm

end JsonFilter.Json
