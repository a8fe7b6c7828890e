import JsonFilter.Proofs.Json.Numeral
import JsonFilter.Proofs.Json.Part
import JsonFilter.Proofs.Json.Reader

namespace JsonFilter

namespace Json

theorem isBlank_of_mem_lineBreak {pretty : Bool} {depth : Nat} {c : Char}
    (h : c ∈ lineBreak pretty depth) : isBlank c = true := by
  cases pretty with
  | false => cases h
  | true =>
    rcases List.mem_cons.mp h with rfl | h
    · rfl
    · rw [List.eq_of_mem_replicate h]
      rfl

theorem skipBlanks_lineBreak (pretty : Bool) (depth : Nat) (cs : List Char) :
    skipBlanks (lineBreak pretty depth ++ cs) = skipBlanks cs :=
  skipBlanks_append (fun _ => isBlank_of_mem_lineBreak) cs

theorem delimited_lineBreak {pretty : Bool} {depth : Nat} {cs : List Char} (h : Delimited cs) :
    Delimited (lineBreak pretty depth ++ cs) := by
  cases pretty with
  | false => exact h
  | true => exact .cons _ rfl (by decide) (by decide) (by decide)

theorem delimited_itemsChars (pretty : Bool) (depth : Nat) (xs : List Json) {cs : List Char}
    (h : Delimited cs) : Delimited (itemsChars pretty depth xs ++ cs) := by
  cases xs with
  | nil => exact h
  | cons x xs => exact .cons _ rfl (by decide) (by decide) (by decide)

theorem delimited_membersChars (pretty : Bool) (depth : Nat) (ms : Members Json) {cs : List Char}
    (h : Delimited cs) : Delimited (membersChars pretty depth ms ++ cs) := by
  cases ms with
  | nil => exact h
  | cons m ms => exact .cons _ rfl (by decide) (by decide) (by decide)

theorem delimited_close (pretty : Bool) (depth : Nat) {c : Char} (h : c = ']' ∨ c = '\x7d')
    (rest : List Char) : Delimited (lineBreak pretty depth ++ c :: rest) := by
  apply delimited_lineBreak
  rcases h with rfl | rfl <;> exact .cons _ rfl (by decide) (by decide) (by decide)

theorem head_chars {j : Json} (exact : Exact j) (pretty : Bool) (depth : Nat) :
    ∃ c cs, j.chars pretty depth = c :: cs ∧ Opens c := by
  cases j with
  | null => exact ⟨'n', _, rfl, rfl, by decide⟩
  | bool b => cases b with
    | false => exact ⟨'f', _, rfl, rfl, by decide⟩
    | true => exact ⟨'t', _, rfl, rfl, by decide⟩
  | num n => cases n with
    | int i =>
      obtain ⟨c, cs, h, first⟩ := head_intChars i
      exact ⟨c, cs, h, opens_of_number first⟩
    | float x => exact (numbers_num.mp exact).elim
  | str s => exact ⟨'"', _, rfl, rfl, by decide⟩
  | arr xs => cases xs <;> exact ⟨'[', _, rfl, rfl, by decide⟩
  | obj ms => cases ms <;> exact ⟨'\x7b', _, rfl, rfl, by decide⟩

end Json

end JsonFilter
