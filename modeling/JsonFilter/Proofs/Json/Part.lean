import JsonFilter.Json.Basic
import JsonFilter.Proofs.Members

namespace JsonFilter.Json

@[elab_as_elim]
theorem parts_induction {motive : Json → Prop} (null : motive .null)
    (bool : ∀ b, motive (.bool b)) (num : ∀ n, motive (.num n)) (str : ∀ s, motive (.str s))
    (arr : ∀ xs : List Json, (∀ x ∈ xs, motive x) → motive (.arr xs))
    (obj : ∀ ms : Members Json, (∀ m ∈ ms, motive m.2) → motive (.obj ms)) (j : Json) :
    motive j := by
  refine @Json.rec motive (fun xs => ∀ x ∈ xs, motive x) (fun ms => ∀ m ∈ ms, motive m.2)
    (fun m => motive m.2) null bool num str arr obj ?_ ?_ ?_ ?_ (fun _ _ h => h) j
  · exact fun _ h => absurd h List.not_mem_nil
  · intro x xs hx hxs y hy
    rcases List.mem_cons.mp hy with rfl | hy
    · exact hx
    · exact hxs y hy
  · exact fun _ h => absurd h List.not_mem_nil
  · intro m ms hm hms n hn
    rcases List.mem_cons.mp hn with rfl | hn
    · exact hm
    · exact hms n hn

inductive Part (p : Json) : Json → Prop
  | self : Part p p
  | item {x : Json} {xs : List Json} : x ∈ xs → Part p x → Part p (.arr xs)
  | value {m : String × Json} {ms : Members Json} : m ∈ ms → Part p m.2 → Part p (.obj ms)

def Numbers (P : Number → Prop) (j : Json) : Prop := ∀ n, Part (.num n) j → P n

def Objects (P : Members Json → Prop) (j : Json) : Prop := ∀ ms, Part (.obj ms) j → P ms

abbrev Exact (j : Json) : Prop := Numbers Number.InRange j

abbrev Distinct (j : Json) : Prop := Objects Members.Distinct j

abbrev Ascending (j : Json) : Prop := Objects Members.Ascending j

theorem part_num {p : Json} {n : Number} : Part p (.num n) ↔ p = .num n := by
  constructor
  · intro h
    cases h
    rfl
  · rintro rfl
    exact .self

theorem part_arr {p : Json} {xs : List Json} :
    Part p (.arr xs) ↔ p = .arr xs ∨ ∃ x ∈ xs, Part p x := by
  constructor
  · intro h
    cases h with
    | self => exact .inl rfl
    | item hx h => exact .inr ⟨_, hx, h⟩
  · rintro (rfl | ⟨x, hx, h⟩)
    · exact .self
    · exact .item hx h

theorem part_obj {p : Json} {ms : Members Json} :
    Part p (.obj ms) ↔ p = .obj ms ∨ ∃ m ∈ ms, Part p m.2 := by
  constructor
  · intro h
    cases h with
    | self => exact .inl rfl
    | value hm h => exact .inr ⟨_, hm, h⟩
  · rintro (rfl | ⟨m, hm, h⟩)
    · exact .self
    · exact .value hm h

section

variable {P : Number → Prop} {Q : Members Json → Prop} {xs : List Json} {ms : Members Json}

@[simp] theorem numbers_null : Numbers P .null := by
  intro n h
  cases h

@[simp] theorem numbers_bool (b : Bool) : Numbers P (.bool b) := by
  intro n h
  cases h

@[simp] theorem numbers_str (s : String) : Numbers P (.str s) := by
  intro n h
  cases h

@[simp] theorem numbers_num {n : Number} : Numbers P (.num n) ↔ P n := by
  constructor
  · exact fun h => h n .self
  · intro h m part
    cases part_num.mp part
    exact h

@[simp] theorem numbers_arr : Numbers P (.arr xs) ↔ ∀ x ∈ xs, Numbers P x := by
  constructor
  · exact fun h x hx n part => h n (.item hx part)
  · intro h n part
    obtain same | ⟨x, hx, part⟩ := part_arr.mp part
    · cases same
    · exact h x hx n part

@[simp] theorem numbers_obj : Numbers P (.obj ms) ↔ ∀ m ∈ ms, Numbers P m.2 := by
  constructor
  · exact fun h m hm n part => h n (.value hm part)
  · intro h n part
    obtain same | ⟨m, hm, part⟩ := part_obj.mp part
    · cases same
    · exact h m hm n part

@[simp] theorem objects_null : Objects Q .null := by
  intro ms h
  cases h

@[simp] theorem objects_bool (b : Bool) : Objects Q (.bool b) := by
  intro ms h
  cases h

@[simp] theorem objects_num (n : Number) : Objects Q (.num n) := by
  intro ms h
  cases h

@[simp] theorem objects_str (s : String) : Objects Q (.str s) := by
  intro ms h
  cases h

@[simp] theorem objects_arr : Objects Q (.arr xs) ↔ ∀ x ∈ xs, Objects Q x := by
  constructor
  · exact fun h x hx ms part => h ms (.item hx part)
  · intro h ms part
    obtain same | ⟨x, hx, part⟩ := part_arr.mp part
    · cases same
    · exact h x hx ms part

@[simp] theorem objects_obj : Objects Q (.obj ms) ↔ Q ms ∧ ∀ m ∈ ms, Objects Q m.2 := by
  constructor
  · exact fun h => ⟨h ms .self, fun m hm ns part => h ns (.value hm part)⟩
  · rintro ⟨top, inner⟩ ns part
    obtain same | ⟨m, hm, part⟩ := part_obj.mp part
    · cases same
      exact top
    · exact inner m hm ns part

end

end JsonFilter.Json
