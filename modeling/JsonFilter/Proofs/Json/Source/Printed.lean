import JsonFilter.Proofs.Json.Block
import JsonFilter.Proofs.Json.Float
import JsonFilter.Proofs.Json.Quoted
import JsonFilter.Proofs.Json.Source.Unique
import JsonFilter.Proofs.Related

namespace JsonFilter.Json

open Grammar

theorem blanks_lineBreak (pretty : Bool) (nesting : Nat) : Blanks (lineBreak pretty nesting) :=
  fun _ h => isBlank_iff.mp (isBlank_of_mem_lineBreak h)

section Depth

variable {depth : Nat}

theorem depthItems_le {xs : List Json} : depthItems xs ≤ depth ↔ ∀ x ∈ xs, x.depth ≤ depth := by
  induction xs with
  | nil => simp [depthItems]
  | cons x xs ih => rw [depthItems, max_le_iff, ih, List.forall_mem_cons]

theorem depthMembers_le {ms : Members Json} :
    depthMembers ms ≤ depth ↔ ∀ m ∈ ms, m.2.depth ≤ depth := by
  induction ms with
  | nil => simp [depthMembers]
  | cons m ms ih =>
    obtain ⟨k, x⟩ := m
    rw [depthMembers, max_le_iff, ih, List.forall_mem_cons]

end Depth

namespace Source

section Distinct

theorem distinct_arr {xs : List Source} (h : ∀ x ∈ xs, Distinct x) : Distinct (.arr xs) := by
  intro ms part
  cases part with
  | item hx part => exact h _ hx ms part

theorem distinct_obj {ms : Members Source} (keys : ms.Distinct) (h : ∀ m ∈ ms, Distinct m.2) :
    Distinct (.obj ms) := by
  intro ns part
  cases part with
  | self => exact keys
  | value hm part => exact h _ hm ns part

theorem Scalar.distinct {s : Source} {t : List Char} (spelled : Scalar s t) : s.Distinct := by
  intro ms part
  cases spelled <;> cases part

end Distinct

section Parts

variable {α : Type} {P : α → List Char → Prop} {xs : List α} {parts : List (List Char)}

theorem separated_inside (spelled : List.Forall₂ P xs parts) (some : xs ≠ []) (pretty : Bool)
    (nesting : Nat) : Separated (Padded P) xs (inside pretty nesting parts) := by
  -- blanks stand in front of each part and behind the last
  have front := blanks_lineBreak pretty (nesting + 1)
  cases spelled with
  | nil => exact absurd rfl some
  | @cons x part xs parts first others =>
    unfold inside
    clear some
    induction others generalizing x part with
    | nil => exact .one (.mk front first (blanks_lineBreak pretty nesting))
    | cons second _ ih =>
      have both := Separated.cons (.mk front first blanks_nil) (ih second)
      simpa using both

theorem listed_inside (spelled : List.Forall₂ P xs parts) (pretty : Bool) (nesting : Nat) :
    Listed P xs (inside pretty nesting parts) := by
  cases spelled with
  | nil => exact .none blanks_nil
  | cons first others => exact .some (separated_inside (.cons first others) nofun pretty nesting)

end Parts

section Printed

variable {pretty : Bool} {nesting depth : Nat}

/-- Some writing without repeated keys is spelled. -/
def Plain (depth : Nat) (t : List Char) : Prop := ∃ s, Spelled depth s t ∧ s.Distinct

theorem Plain.of_scalar {s : Source} {t : List Char} (spelled : Scalar s t) : Plain depth t := by
  refine ⟨s, ?_, spelled.distinct⟩
  cases depth with
  | zero => exact spelled
  | succ depth => exact .inl spelled

theorem plain_number (n : Number) : Plain depth n.chars := by
  rcases n.chars_literal with null | ⟨m, literal⟩
  · rw [null]
    exact .of_scalar .null
  · exact .of_scalar (.number literal)

theorem plain_arr {xs : List Json} (plain : ∀ x ∈ xs, Plain depth (x.chars pretty (nesting + 1))) :
    Plain (depth + 1) ((Json.arr xs).chars pretty nesting) := by
  obtain ⟨ss, parts⟩ := exists_forall₂ plain
  have spelled : List.Forall₂ (Spelled depth) ss (xs.map (chars pretty (nesting + 1))) :=
    List.forall₂_map_right_iff.mpr (parts.imp fun _ _ both => both.1)
  refine ⟨.arr ss, .inr ?_, distinct_arr fun s hs => ?_⟩
  · rw [chars_arr]
    exact .arr (listed_inside spelled pretty nesting)
  · obtain ⟨_, -, -, distinct⟩ := forall₂_mem_left parts hs
    exact distinct

theorem plain_obj {ms : Members Json} (keys : ms.Distinct)
    (plain : ∀ m ∈ ms, Plain depth (m.2.chars pretty (nesting + 1))) :
    Plain (depth + 1) ((Json.obj ms).chars pretty nesting) := by
  have member : ∀ m ∈ ms, ∃ n : String × Source, Member (Spelled depth) n
      (memberChars pretty (nesting + 1) m) ∧ n.1 = m.1 ∧ n.2.Distinct := by
    intro m hm
    obtain ⟨s, spelled, distinct⟩ := plain m hm
    have space : Blanks [' '] := by simp [Blanks]
    refine ⟨(m.1, s), ?_, rfl, distinct⟩
    have quoted := quotation_document m.1
    cases pretty with
    | false => exact .mk quoted blanks_nil blanks_nil spelled
    | true => exact .mk quoted blanks_nil space spelled
  obtain ⟨ns, parts⟩ := exists_forall₂ member
  have spelled : List.Forall₂ (Member (Spelled depth)) ns
      (ms.map (memberChars pretty (nesting + 1))) :=
    List.forall₂_map_right_iff.mpr (parts.imp fun _ _ both => both.1)
  have same : ns.map Prod.fst = ms.map Prod.fst := by
    rw [← List.forall₂_eq_eq_eq, List.forall₂_map_left_iff, List.forall₂_map_right_iff]
    exact parts.imp fun _ _ both => both.2.1
  have distinct : Members.Distinct ns := by
    rw [Members.Distinct, Members.keys, same]
    exact keys
  refine ⟨.obj ns, .inr ?_, distinct_obj distinct fun n hn => ?_⟩
  · rw [chars_obj]
    exact .obj (listed_inside spelled pretty nesting)
  · obtain ⟨_, -, -, -, distinct⟩ := forall₂_mem_left parts hn
    exact distinct

theorem plain_chars {j : Json} (distinct : j.Distinct) (shallow : j.depth ≤ depth) :
    Plain depth (j.chars pretty nesting) := by
  induction j using Json.parts_induction generalizing depth nesting with
  | null => exact .of_scalar .null
  | bool b =>
    cases b with
    | false => exact .of_scalar .false
    | true => exact .of_scalar .true
  | num n => exact plain_number n
  | str s => exact .of_scalar (.string (quotation_document s))
  | arr xs ih =>
    have distinct := objects_arr.mp distinct
    cases depth with
    | zero => cases shallow
    | succ depth =>
      have inner := depthItems_le.mp (Nat.le_of_succ_le_succ shallow)
      exact plain_arr fun x hx => ih x hx (distinct x hx) (inner x hx)
  | obj ms ih =>
    obtain ⟨keys, distinct⟩ := objects_obj.mp distinct
    cases depth with
    | zero => cases shallow
    | succ depth =>
      have inner := depthMembers_le.mp (Nat.le_of_succ_le_succ shallow)
      exact plain_obj keys fun m hm => ih m hm (distinct m hm) (inner m hm)

end Printed

theorem written_chars {j : Json} (distinct : j.Distinct) (pretty : Bool) :
    ∃ s : Source, s.Written (String.ofList (j.chars pretty 0)) ∧ s.Distinct := by
  have plain : Plain j.depth (j.chars pretty 0) := plain_chars distinct (le_refl j.depth)
  obtain ⟨s, spelled, distinct⟩ := plain
  refine ⟨s, ⟨j.depth, ?_⟩, distinct⟩
  rw [String.toList_ofList]
  simpa using Padded.mk blanks_nil spelled blanks_nil

end Source

end JsonFilter.Json
