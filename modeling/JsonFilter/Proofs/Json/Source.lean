import JsonFilter.Proofs.Json.Grammar.Value
import JsonFilter.Proofs.Members.Repeated

namespace JsonFilter.Json

/-- A document as it is written. -/
inductive Source
  | null
  | bool (value : Bool)
  | num (literal : Numeral)
  | str (value : String)
  | arr (items : List Source)
  | obj (members : List (String × Source))

namespace Source

open Grammar

variable {α β : Type}

inductive Part (p : Source) : Source → Prop
  | self : Part p p
  | item {x : Source} {xs : List Source} : x ∈ xs → Part p x → Part p (.arr xs)
  | value {m : String × Source} {ms : Members Source} : m ∈ ms → Part p m.2 → Part p (.obj ms)

def Distinct (s : Source) : Prop := ∀ ms : Members Source, Part (.obj ms) s → ms.Distinct

/-- What stands for what: the members of each object are those that its pairs resolve to, once their
values are known. -/
inductive Denotes : Source → Json → Prop
  | null : Denotes .null .null
  | bool (b : Bool) : Denotes (.bool b) (.bool b)
  | num {n : Numeral} {v : Number} : n.number? = some v → Denotes (.num n) (.num v)
  | str (s : String) : Denotes (.str s) (.str s)
  | arr {xs : List Source} {ys : List Json} : List.Forall₂ Denotes xs ys →
    Denotes (.arr xs) (.arr ys)
  | obj {ms : Members Source} {pairs os : Members Json} : ms.keys = pairs.keys →
    List.Forall₂ Denotes ms.values pairs.values → pairs.Resolves os → Denotes (.obj ms) (.obj os)

section Spelling

/-- Any literal will do, also one that denotes no number. -/
inductive Scalar : Source → List Char → Prop
  | null : Scalar .null "null".toList
  | true : Scalar (.bool true) "true".toList
  | false : Scalar (.bool false) "false".toList
  | number {n : Numeral} {t : List Char} (literal : Literal n t) : Scalar (.num n) t
  | string {s : String} {t : List Char} (quoted : Quotation s t) : Scalar (.str s) t

inductive Listed (P : α → List Char → Prop) : List α → List Char → Prop
  | none {b : List Char} (blanks : Blanks b) : Listed P [] b
  | some {xs : List α} {t : List Char} (elements : Separated (Padded P) xs t) : Listed P xs t

variable (P : Source → List Char → Prop)

inductive Member : String × Source → List Char → Prop
  | mk {k : String} {x : Source} {t b b' u : List Char} (key : Quotation k t) (before : Blanks b)
      (behind : Blanks b') (value : P x u) : Member (k, x) (t ++ (b ++ ':' :: (b' ++ u)))

inductive Container : Source → List Char → Prop
  | arr {xs : List Source} {t : List Char} (items : Listed P xs t) :
      Container (.arr xs) ('[' :: (t ++ [']']))
  | obj {ms : Members Source} {t : List Char} (members : Listed (Member P) ms t) :
      Container (.obj ms) ('\x7b' :: (t ++ ['\x7d']))

def Spelled : Nat → Source → List Char → Prop
  | 0, s, t => Scalar s t
  | depth + 1, s, t => Scalar s t ∨ Container (Spelled depth) s t

def Written (s : Source) (text : String) : Prop := ∃ depth, Padded (Spelled depth) s text.toList

end Spelling

section Values

variable {P : α → List Char → Prop} {Q : β → List Char → Prop} {D : β → α → Prop}
  (stands : ∀ x t, P x t ↔ ∃ y, Q y t ∧ D y x)

include stands

theorem padded_iff (x : α) (t : List Char) :
    Padded P x t ↔ ∃ y, Padded Q y t ∧ D y x := by
  constructor
  · rintro ⟨before, spelled, behind⟩
    obtain ⟨y, written, denotes⟩ := (stands _ _).mp spelled
    exact ⟨y, .mk before written behind, denotes⟩
  · rintro ⟨y, ⟨before, written, behind⟩, denotes⟩
    exact .mk before ((stands _ _).mpr ⟨y, written, denotes⟩) behind

theorem separated_iff (xs : List α) (t : List Char) :
    Separated P xs t ↔ ∃ ys, Separated Q ys t ∧ List.Forall₂ D ys xs := by
  constructor
  · intro spelled
    induction spelled with
    | one only =>
      obtain ⟨y, written, denotes⟩ := (stands _ _).mp only
      exact ⟨[y], .one written, .cons denotes .nil⟩
    | cons first _ ih =>
      obtain ⟨y, written, denotes⟩ := (stands _ _).mp first
      obtain ⟨ys, others, values⟩ := ih
      exact ⟨y :: ys, .cons written others, .cons denotes values⟩
  · rintro ⟨ys, written, values⟩
    induction written generalizing xs with
    | one only =>
      obtain _ | ⟨denotes, none⟩ := values
      cases none
      exact .one ((stands _ _).mpr ⟨_, only, denotes⟩)
    | cons first _ ih =>
      obtain _ | ⟨denotes, values⟩ := values
      exact .cons ((stands _ _).mpr ⟨_, first, denotes⟩) (ih _ values)

end Values

theorem scalar_iff {j : Json} {t : List Char} :
    Grammar.Scalar j t ↔ ∃ s, Scalar s t ∧ Denotes s j := by
  constructor
  · rintro (_ | _ | _ | ⟨literal, denotes⟩ | quoted)
    · exact ⟨_, .null, .null⟩
    · exact ⟨_, .true, .bool _⟩
    · exact ⟨_, .false, .bool _⟩
    · exact ⟨_, .number literal, .num denotes⟩
    · exact ⟨_, .string quoted, .str _⟩
  · rintro ⟨s, _ | _ | _ | literal | quoted, denotes⟩
    · cases denotes
      exact .null
    · cases denotes
      exact .true
    · cases denotes
      exact .false
    · obtain _ | _ | denotes := denotes
      exact .number literal denotes
    · cases denotes
      exact .string quoted

section Containers

variable {P : Json → List Char → Prop} {Q : Source → List Char → Prop}
  (stands : ∀ j t, P j t ↔ ∃ s, Q s t ∧ Denotes s j)

include stands

theorem member_iff (m : String × Json) (t : List Char) :
    Grammar.Member P m t ↔ ∃ n, Member Q n t ∧ n.1 = m.1 ∧ Denotes n.2 m.2 := by
  constructor
  · rintro ⟨key, before, behind, value⟩
    obtain ⟨s, written, denotes⟩ := (stands _ _).mp value
    exact ⟨_, .mk key before behind written, rfl, denotes⟩
  · rintro ⟨n, ⟨key, before, behind, value⟩, same, denotes⟩
    obtain ⟨k, j⟩ := m
    cases same
    exact .mk key before behind ((stands _ _).mpr ⟨_, value, denotes⟩)

theorem container_iff (j : Json) (t : List Char) :
    Grammar.Container P j t ↔ ∃ s, Container Q s t ∧ Denotes s j := by
  have items := separated_iff (padded_iff stands)
  have members := separated_iff (padded_iff (member_iff stands))
  constructor
  · rintro (blanks | elements | blanks | pairs)
    · exact ⟨_, .arr (.none blanks), .arr .nil⟩
    · obtain ⟨ys, written, values⟩ := (items _ _).mp elements
      exact ⟨_, .arr (.some written), .arr values⟩
    · have empty : Members.Resolves [] ([] : Members Json) := Members.resolves_ofPairs []
      exact ⟨_, .obj (.none blanks), .obj rfl .nil empty⟩
    · obtain ⟨ns, written, values⟩ := (members _ _).mp pairs
      obtain ⟨keys, values⟩ := Members.forall₂_iff.mp values
      exact ⟨_, .obj (.some written), .obj keys values (Members.resolves_ofPairs _)⟩
  · rintro ⟨s, ⟨listed⟩ | ⟨listed⟩, denotes⟩
    · obtain _ | _ | _ | _ | values := denotes
      cases listed with
      | none blanks =>
        cases values
        exact .noItems blanks
      | some elements => exact .items ((items _ _).mpr ⟨_, elements, values⟩)
    · obtain _ | _ | _ | _ | _ | ⟨keys, values, resolves⟩ := denotes
      cases Members.resolves_iff.mp resolves
      cases listed with
      | none blanks =>
        cases Members.forall₂_iff.mpr ⟨keys, values⟩
        exact .noMembers blanks
      | some elements =>
        exact .members ((members _ _).mpr ⟨_, elements, Members.forall₂_iff.mpr ⟨keys, values⟩⟩)

end Containers

theorem value_iff (depth : Nat) (j : Json) (t : List Char) :
    Grammar.Value depth j t ↔ ∃ s, Spelled depth s t ∧ Denotes s j := by
  induction depth generalizing j t with
  | zero => exact scalar_iff
  | succ depth ih =>
    rw [Grammar.Value, scalar_iff, container_iff ih]
    constructor
    · rintro (⟨s, written, denotes⟩ | ⟨s, written, denotes⟩)
      · exact ⟨s, .inl written, denotes⟩
      · exact ⟨s, .inr written, denotes⟩
    · rintro ⟨s, written | written, denotes⟩
      · exact .inl ⟨s, written, denotes⟩
      · exact .inr ⟨s, written, denotes⟩

end Source

end JsonFilter.Json
