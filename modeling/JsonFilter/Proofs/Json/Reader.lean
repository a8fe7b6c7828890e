import JsonFilter.Json.Reader

namespace JsonFilter.Json

theorem skipBlanks_cons {c : Char} (h : isBlank c = false) (cs : List Char) :
    skipBlanks (c :: cs) = c :: cs := by
  simp [skipBlanks, h]

theorem skipBlanks_append {blanks : List Char} (h : ∀ c ∈ blanks, isBlank c = true)
    (cs : List Char) : skipBlanks (blanks ++ cs) = skipBlanks cs :=
  List.dropWhile_append_of_pos h

def Opens (c : Char) : Prop := isBlank c = false ∧ c ≠ ']'

theorem opens_of_number {c : Char} (h : c = '-' ∨ c.isDigit = true) : Opens c := by
  rcases h with rfl | digit
  · exact ⟨rfl, by decide⟩
  · constructor
    · cases blank : isBlank c with
      | false => rfl
      | true =>
        simp only [isBlank, Bool.or_eq_true, decide_eq_true_eq] at blank
        rcases blank with ((rfl | rfl) | rfl) | rfl <;> cases digit
    · rintro rfl
      cases digit

/-- No character at the start of the text can belong to a number literal. -/
def Delimited (rest : List Char) : Prop :=
  ∀ c ∈ rest.head?, c.isDigit = false ∧ c ≠ '.' ∧ c ≠ 'e' ∧ c ≠ 'E'

theorem Delimited.nil : Delimited [] := by
  intro c h
  cases h

theorem Delimited.cons {c : Char} (rest : List Char) (digit : c.isDigit = false) (point : c ≠ '.')
    (lower : c ≠ 'e') (upper : c ≠ 'E') : Delimited (c :: rest) := by
  intro d h
  cases h
  exact ⟨digit, point, lower, upper⟩

theorem scalar_number {c : Char} (first : c = '-' ∨ c.isDigit = true) (fuel : Nat) (cs : List Char) :
    scalar fuel (c :: cs) = readNumber (c :: cs) >>= fun p => .ok (.num p.1, p.2) := by
  have other : c ≠ 'n' ∧ c ≠ 't' ∧ c ≠ 'f' ∧ c ≠ '"' := by
    refine ⟨?_, ?_, ?_, ?_⟩ <;> rintro rfl <;> revert first <;> decide
  have start : c = '-' ∨ c.isDigit := first
  unfold scalar
  split
  all_goals rename_i same
  · cases same
  · exact absurd (List.cons.inj same).1 other.1
  · exact absurd (List.cons.inj same).1 other.2.1
  · exact absurd (List.cons.inj same).1 other.2.2.1
  · exact absurd (List.cons.inj same).1 other.2.2.2
  · obtain ⟨rfl, rfl⟩ := List.cons.inj same
    rw [if_pos start]
    rfl

theorem value_scalar {c : Char} (blank : isBlank c = false) (bracket : c ≠ '[')
    (brace : c ≠ '\x7b') (fuel depth : Nat) (cs : List Char) :
    value fuel depth (c :: cs) = scalar fuel (c :: cs) := by
  cases depth <;> simp only [value, skipBlanks_cons blank]
  all_goals
    split
    · rename_i same
      exact absurd (List.cons.inj same).1 bracket
    · rename_i same
      exact absurd (List.cons.inj same).1 brace
    · rfl

theorem value_bracket (fuel depth : Nat) (cs : List Char) :
    value fuel (depth + 1) ('[' :: cs) =
      items (value fuel depth) fuel cs >>= fun p => .ok (.arr p.1, p.2) := rfl

theorem value_brace (fuel depth : Nat) (cs : List Char) :
    value fuel (depth + 1) ('\x7b' :: cs) =
      members (value fuel depth) fuel cs >>= fun p => .ok (.obj p.1, p.2) := rfl

theorem value_skipBlanks {cs cs' : List Char} (same : skipBlanks cs = skipBlanks cs')
    (fuel depth : Nat) : value fuel depth cs = value fuel depth cs' := by
  cases depth <;> simp only [value, same]

theorem word_append (expected rest : List Char) : word expected (expected ++ rest) = .ok rest := by
  induction expected with
  | nil => rfl
  | cons e es ih => simpa [word] using ih

theorem value_null (fuel depth : Nat) (rest : List Char) :
    value fuel depth ("null".toList ++ rest) = .ok (.null, rest) := by
  show value fuel depth ('n' :: ("ull".toList ++ rest)) = _
  rw [value_scalar rfl (by decide) (by decide)]
  simp only [scalar, word_append, Bind.bind, Except.bind, Pure.pure, Except.pure]

theorem value_true (fuel depth : Nat) (rest : List Char) :
    value fuel depth ("true".toList ++ rest) = .ok (.bool true, rest) := by
  show value fuel depth ('t' :: ("rue".toList ++ rest)) = _
  rw [value_scalar rfl (by decide) (by decide)]
  simp only [scalar, word_append, Bind.bind, Except.bind, Pure.pure, Except.pure]

theorem value_false (fuel depth : Nat) (rest : List Char) :
    value fuel depth ("false".toList ++ rest) = .ok (.bool false, rest) := by
  show value fuel depth ('f' :: ("alse".toList ++ rest)) = _
  rw [value_scalar rfl (by decide) (by decide)]
  simp only [scalar, word_append, Bind.bind, Except.bind, Pure.pure, Except.pure]

section Elements

variable {item : Reader Json} {c : Char} {cs rest : List Char}

theorem itemsAfter_element (next : skipBlanks rest = c :: cs) (bracket : c ≠ ']') (fuel : Nat)
    (acc : List Json) :
    itemsAfter item (fuel + 1) acc (',' :: rest) =
      item (c :: cs) >>= fun p => itemsAfter item fuel (p.1 :: acc) p.2 := by
  have comma : skipBlanks (',' :: rest) = ',' :: rest := skipBlanks_cons rfl rest
  simp only [itemsAfter, comma, next]
  split
  · rename_i empty
    cases empty
  · rename_i same
    exact absurd (List.cons.inj same).1 bracket
  · cases item (c :: cs) <;> rfl

theorem items_element (next : skipBlanks rest = c :: cs) (bracket : c ≠ ']') (fuel : Nat) :
    items item fuel rest = item (c :: cs) >>= fun p => itemsAfter item fuel [p.1] p.2 := by
  simp only [items, next]
  split
  · rename_i empty
    cases empty
  · rename_i same
    exact absurd (List.cons.inj same).1 bracket
  · cases item (c :: cs) <;> rfl

theorem membersAfter_quote {fuel : Nat} {acc : Members Json} (next : skipBlanks rest = '"' :: cs) :
    membersAfter item (fuel + 1) acc (',' :: rest) =
      member item fuel cs >>= fun p => membersAfter item fuel (acc.put p.1.1 p.1.2) p.2 := by
  have comma : skipBlanks (',' :: rest) = ',' :: rest := skipBlanks_cons rfl rest
  simp only [membersAfter, comma, next]
  cases member item fuel cs <;> rfl

theorem members_quote {fuel : Nat} (next : skipBlanks rest = '"' :: cs) :
    members item fuel rest =
      member item fuel cs >>= fun p => membersAfter item fuel (Members.put [] p.1.1 p.1.2) p.2 := by
  simp only [members, next]
  cases member item fuel cs <;> rfl

end Elements

end JsonFilter.Json
