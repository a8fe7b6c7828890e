import JsonFilter.Text.Blank
import Mathlib.Data.List.DropRight

namespace JsonFilter.Blank

def Only (cs : List Char) : Prop := ∀ c ∈ cs, isBlank c = true

def Trimmed (cs : List Char) : Prop := ∀ c, cs.head? = some c → isBlank c = false

variable {cs front : List Char}

theorem only_nil : Only [] := nofun

theorem only_cons {c : Char} : Only (c :: cs) ↔ isBlank c = true ∧ Only cs := List.forall_mem_cons

theorem trimmed_nil : Trimmed [] := nofun

theorem trimmed_trimStart (cs : List Char) : Trimmed (trimStart cs) := by
  intro c first
  have stopped := List.head?_dropWhile_not isBlank cs
  unfold trimStart at first
  rw [first] at stopped
  exact stopped

theorem Trimmed.ofPrefix (h : Trimmed cs) (part : front <+: cs) : Trimmed front := by
  intro c first
  obtain ⟨rest, rfl⟩ := part
  refine h c ?_
  rw [List.head?_append, first, Option.some_or]

theorem Trimmed.eq_nil (h : Trimmed cs) (only : Only cs) : cs = [] := by
  cases cs with
  | nil => rfl
  | cons c cs => cases (h c rfl).symm.trans (only_cons.mp only).1

theorem trimEnd_eq_nil : trimEnd cs = [] ↔ Only cs := List.rdropWhile_eq_nil_iff

theorem trimEnd_isPrefix (cs : List Char) : trimEnd cs <+: cs := List.rdropWhile_prefix isBlank cs

/-- A line of blanks, and more than blanks behind it. -/
def LineFirst (cs : List Char) : Prop :=
  ∃ line more, cs = line ++ '\n' :: more ∧ Only line ∧ ¬ Only more

theorem Trimmed.not_lineFirst (h : Trimmed cs) : ¬ LineFirst cs := by
  rintro ⟨line, more, rfl, blank, -⟩
  have nothing := (h.ofPrefix (List.prefix_append _ _)).eq_nil blank
  subst nothing
  cases h '\n' rfl

theorem lineFirst_cons {c : Char} (other : c ≠ '\n') :
    LineFirst (c :: cs) ↔ isBlank c = true ∧ LineFirst cs := by
  constructor
  · rintro ⟨_ | ⟨d, line⟩, more, same, only, visible⟩
    · cases same
      exact (other rfl).elim
    · cases same
      obtain ⟨blank, only⟩ := only_cons.mp only
      exact ⟨blank, line, more, rfl, only, visible⟩
  · rintro ⟨blank, line, more, rfl, only, visible⟩
    exact ⟨c :: line, more, rfl, only_cons.mpr ⟨blank, only⟩, visible⟩

theorem only_takeWhile : Only (cs.takeWhile (· != '\n')) ↔ Only cs ∨ LineFirst cs := by
  induction cs with
  | nil => exact ⟨.inl, fun _ => only_nil⟩
  | cons c cs ih =>
    by_cases feed : c = '\n'
    · subst feed
      refine ⟨fun _ => ?_, fun _ => only_nil⟩
      by_cases only : Only cs
      · exact .inl (only_cons.mpr ⟨rfl, only⟩)
      · exact .inr ⟨[], cs, rfl, only_nil, only⟩
    · have first : (c :: cs).takeWhile (· != '\n') = c :: cs.takeWhile (· != '\n') :=
        List.takeWhile_cons_of_pos (bne_iff_ne.mpr feed)
      rw [first, only_cons, only_cons, lineFirst_cons feed, ih, and_or_left]

end JsonFilter.Blank
