import JsonFilter.Proofs.Json.Part
import JsonFilter.Proofs.Related
import Mathlib.Data.List.Perm.Basic

namespace JsonFilter.Json

/-- Equal up to the order of the members of objects, at every level. -/
inductive Reordered : Json → Json → Prop
  | null : Reordered .null .null
  | bool (b : Bool) : Reordered (.bool b) (.bool b)
  | num (n : Number) : Reordered (.num n) (.num n)
  | str (s : String) : Reordered (.str s) (.str s)
  | arr {xs ys : List Json} : List.Forall₂ Reordered xs ys → Reordered (.arr xs) (.arr ys)
  | obj {ms ns ps : Members Json} : ms.keys = ns.keys →
    List.Forall₂ Reordered ms.values ns.values → ns.Perm ps → Reordered (.obj ms) (.obj ps)

abbrev MembersReordered : Members Json → Members Json → Prop :=
  List.Forall₂ fun m n => m.1 = n.1 ∧ Reordered m.2 n.2

theorem membersReordered_iff {ms ns : Members Json} :
    MembersReordered ms ns ↔
      ms.keys = ns.keys ∧ List.Forall₂ Reordered ms.values ns.values :=
  Members.forall₂_iff

theorem Reordered.members {ms ns ps : Members Json} (h : MembersReordered ms ns)
    (perm : ns.Perm ps) : Reordered (.obj ms) (.obj ps) := by
  obtain ⟨keys, values⟩ := membersReordered_iff.mp h
  exact .obj keys values perm

theorem Reordered.obj_inv {ms : Members Json} {j : Json} (h : Reordered (.obj ms) j) :
    ∃ ns ps, MembersReordered ms ns ∧ ns.Perm ps ∧ j = .obj ps := by
  cases h with
  | obj keys values perm => exact ⟨_, _, membersReordered_iff.mpr ⟨keys, values⟩, perm, rfl⟩

theorem Reordered.refl (j : Json) : Reordered j j := by
  induction j using parts_induction with
  | null => exact .null
  | bool b => exact .bool b
  | num n => exact .num n
  | str s => exact .str s
  | arr xs ih => exact .arr (List.forall₂_same.mpr ih)
  | obj ms ih => exact .members (List.forall₂_same.mpr fun m hm => ⟨rfl, ih m hm⟩) (.refl ms)

theorem Reordered.symm {v w : Json} (h : Reordered v w) : Reordered w v := by
  induction v using parts_induction generalizing w with
  | null => cases h; exact .null
  | bool b => cases h; exact .bool b
  | num n => cases h; exact .num n
  | str s => cases h; exact .str s
  | arr xs ih =>
    cases h with
    | arr items => exact .arr (forall₂_swap items fun x hx y => ih x hx)
  | obj ms ih =>
    obtain ⟨ns, ps, members, perm, rfl⟩ := h.obj_inv
    have back : MembersReordered ns ms :=
      forall₂_swap members fun m hm n same => ⟨same.1.symm, ih m hm same.2⟩
    obtain ⟨qs, first, second⟩ := List.perm_comp_forall₂ perm.symm back
    exact .members first second

theorem Reordered.trans {u v w : Json} (h : Reordered u v) (h' : Reordered v w) :
    Reordered u w := by
  induction u using parts_induction generalizing v w with
  | null => cases h; exact h'
  | bool b => cases h; exact h'
  | num n => cases h; exact h'
  | str s => cases h; exact h'
  | arr xs ih =>
    cases h with
    | arr items =>
      cases h' with
      | arr items' => exact .arr (forall₂_trans items items' fun x hx y z => ih x hx)
  | obj ms ih =>
    obtain ⟨ns, ps, members, perm, rfl⟩ := h.obj_inv
    obtain ⟨qs, rs, members', perm', rfl⟩ := h'.obj_inv
    obtain ⟨ts, first, second⟩ := List.perm_comp_forall₂ perm members'
    refine .members (forall₂_trans members first ?_) (second.trans perm')
    exact fun m hm n p one two => ⟨one.1.trans two.1, ih m hm one.2 two.2⟩

theorem Reordered.numbers {P : Number → Prop} {v w : Json} (h : Reordered v w)
    (hv : Numbers P v) : Numbers P w := by
  induction v using parts_induction generalizing w with
  | null => cases h; exact hv
  | bool b => cases h; exact hv
  | num n => cases h; exact hv
  | str s => cases h; exact hv
  | arr xs ih =>
    cases h with
    | arr items =>
      refine numbers_arr.mpr fun y hy => ?_
      obtain ⟨x, hx, same⟩ := forall₂_mem_right items hy
      exact ih x hx same (numbers_arr.mp hv x hx)
  | obj ms ih =>
    obtain ⟨ns, ps, members, perm, rfl⟩ := h.obj_inv
    refine numbers_obj.mpr fun p hp => ?_
    obtain ⟨m, hm, same⟩ := forall₂_mem_right members (perm.mem_iff.mpr hp)
    exact ih m hm same.2 (numbers_obj.mp hv m hm)

theorem depthItems_eq_foldr (xs : List Json) : depthItems xs = (xs.map depth).foldr max 0 := by
  induction xs with
  | nil => rfl
  | cons x xs ih => rw [depthItems, ih, List.map_cons, List.foldr_cons]

theorem depthMembers_eq_foldr (ms : Members Json) :
    depthMembers ms = (ms.map fun m => m.2.depth).foldr max 0 := by
  induction ms with
  | nil => rfl
  | cons m ms ih => rw [depthMembers, ih, List.map_cons, List.foldr_cons]

theorem Reordered.depth_eq {v w : Json} (h : Reordered v w) : v.depth = w.depth := by
  induction v using parts_induction generalizing w with
  | null => cases h; rfl
  | bool b => cases h; rfl
  | num n => cases h; rfl
  | str s => cases h; rfl
  | arr xs ih =>
    cases h with
    | arr items =>
      rw [depth, depth, depthItems_eq_foldr, depthItems_eq_foldr,
        map_eq_of_forall₂ items fun x hx y same => ih x hx same]
  | obj ms ih =>
    obtain ⟨ns, ps, members, perm, rfl⟩ := h.obj_inv
    rw [depth, depth, depthMembers_eq_foldr, depthMembers_eq_foldr,
      map_eq_of_forall₂ members fun m hm n same => ih m hm same.2, (perm.map _).foldr_eq 0]

end JsonFilter.Json
