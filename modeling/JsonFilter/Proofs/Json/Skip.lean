import JsonFilter.Json.Skip
import JsonFilter.Proofs.Json.Grammar.Value

namespace JsonFilter.Json.Skip

open Grammar

section Numbers

theorem span_digits {ds rest : List Char} (digits : Digits ds)
    (stop : ∀ c ∈ rest.head?, c.isDigit = false) : (ds ++ rest).span Char.isDigit = (ds, rest) :=
  Numeral.splitDigits_append digits.2 stop

theorem exponent_passed {x : Option (Bool × List Char)} {e rest : List Char}
    (spelled : Exponent x e) (delimited : Delimited rest) : exponent (e ++ rest) = .ok rest := by
  cases spelled with
  | none =>
    rw [List.nil_append]
    unfold exponent
    split
    · exact absurd rfl (delimited _ rfl).2.2.1
    · exact absurd rfl (delimited _ rfl).2.2.2
    · rfl
  | @some _ _ s ds letter sign digits =>
    have split := span_digits digits (fun c hc => (delimited c hc).1)
    obtain ⟨d, ds, rfl⟩ := List.exists_cons_of_ne_nil digits.1
    have first : d.isDigit = true := digits.2 d List.mem_cons_self
    have other : d ≠ '+' ∧ d ≠ '-' := by
      constructor <;> rintro rfl <;> cases first
    rw [List.cons_append] at split
    rcases letter with rfl | rfl
    all_goals cases sign <;> simp [exponent, other, split, -List.span_eq_takeWhile_dropWhile]

theorem fraction_passed {y : Option (List Char)} {x : Option (Bool × List Char)}
    {f e rest : List Char} (point : Fraction y f) (power : Exponent x e)
    (delimited : Delimited rest) : fraction (f ++ (e ++ rest)) = .ok rest := by
  have stop := Numeral.Exponent.stop power delimited
  cases point with
  | none =>
    rw [List.nil_append]
    unfold fraction
    split
    · rename_i same
      rw [same] at stop
      exact absurd rfl (stop '.' rfl).2
    · exact exponent_passed power delimited
  | some digits =>
    have split := span_digits digits (fun c hc => (stop c hc).1)
    obtain ⟨d, ds, rfl⟩ := List.exists_cons_of_ne_nil digits.1
    rw [List.cons_append] at split
    simp only [List.cons_append, fraction, split]
    exact exponent_passed power delimited

theorem number_passed {whole : List Char} {y : Option (List Char)}
    {x : Option (Bool × List Char)} {f e rest : List Char} (digits : Digits whole)
    (leading : whole.head? = some '0' → whole = ['0']) (point : Fraction y f) (power : Exponent x e)
    (delimited : Delimited rest) : number (whole ++ (f ++ (e ++ rest))) = .ok rest := by
  have stop : ∀ c ∈ (f ++ (e ++ rest)).head?, c.isDigit = false := by
    cases point with
    | none => exact fun c hc => (Numeral.Exponent.stop power delimited c hc).1
    | some digits =>
      rintro c ⟨⟩
      rfl
  unfold number
  rw [span_digits digits stop]
  split
  · rename_i empty
    exact absurd (Prod.mk.inj empty).1 digits.1
  · rename_i zero
    have same := (Prod.mk.inj zero).1
    have alone := leading (by rw [same]; rfl)
    rw [same] at alone
    cases alone
  · rename_i same
    obtain ⟨rfl, rfl⟩ := Prod.mk.inj same
    exact fraction_passed point power delimited

end Numbers

section Strings

theorem string_character {c : Char} {t : List Char} (spelled : Character c t) {fuel : Nat}
    (enough : t.length < fuel) (cs : List Char) :
    ∃ less, fuel ≤ less + t.length ∧ string fuel (t ++ cs) = string less cs := by
  have escaped {u rest : List Char} (fuel : Nat) (passed : escape u = .ok rest) :
      string (fuel + 1) ('\\' :: u) = string fuel rest := by
    simp [string, passed]
  have unit {n : Nat} {ds : List Char} (rest : List Char) (h : CodeUnit n ds) :
      escape ('u' :: (ds ++ rest)) = .ok rest := by
    have digits : hex4 (ds ++ rest) = .ok (n, rest) := hex4_eq_ok.mpr ⟨ds, rfl, h⟩
    simp only [escape, digits, Bind.bind, Except.bind]
    rfl
  obtain ⟨fuel, rfl⟩ : ∃ n, fuel = n + 1 := ⟨fuel - 1, by omega⟩
  cases spelled with
  | plain quote backslash visible =>
    have visible : ¬ c.toNat < 0x20 := by omega
    exact ⟨fuel, by simp, by simp [string, quote, backslash, visible]⟩
  | letter stands =>
    refine ⟨fuel, by simp, escaped fuel ?_⟩
    simp only [letters, List.mem_cons, List.not_mem_nil, or_false, Prod.mk.injEq] at stands
    rcases stands with ⟨rfl, rfl⟩ | ⟨rfl, rfl⟩ | ⟨rfl, rfl⟩ | ⟨rfl, rfl⟩ | ⟨rfl, rfl⟩ |
      ⟨rfl, rfl⟩ | ⟨rfl, rfl⟩ | ⟨rfl, rfl⟩
    all_goals rfl
  | single h => exact ⟨fuel, by simp, escaped fuel (unit _ h)⟩
  | @pair m n t u lead high trail low =>
    simp only [List.length_cons, List.length_append] at enough ⊢
    obtain ⟨fuel, rfl⟩ : ∃ n, fuel = n + 1 := ⟨fuel - 1, by omega⟩
    refine ⟨fuel, by omega, ?_⟩
    have first := escaped (fuel + 1) (unit ('\\' :: 'u' :: (u ++ cs)) lead)
    have second := escaped fuel (unit cs trail)
    simpa using first.trans second

theorem characters_passed {s t : List Char} (spelled : Characters s t) {fuel : Nat}
    (enough : t.length < fuel) (rest : List Char) : string fuel (t ++ '"' :: rest) = .ok rest := by
  induction spelled generalizing fuel with
  | nil =>
    obtain ⟨fuel, rfl⟩ : ∃ n, fuel = n + 1 := ⟨fuel - 1, by omega⟩
    rfl
  | @cons c s t u first others ih =>
    rw [List.length_append] at enough
    have short : t.length < fuel := by omega
    obtain ⟨less, left, passed⟩ := string_character first short (u ++ '"' :: rest)
    rw [List.append_assoc, passed, ih (by omega)]

theorem string_passed {s : String} {t : List Char} (quoted : Quotation s t) {fuel : Nat}
    (enough : t.length ≤ fuel) (rest : List Char) :
    ∃ u, t ++ rest = '"' :: u ∧ string fuel u = .ok rest := by
  obtain ⟨inside⟩ := quoted
  rename_i s t
  simp only [List.length_cons, List.length_append] at enough
  exact ⟨t ++ '"' :: rest, by simp, characters_passed inside (by omega) rest⟩

end Strings

section Values

variable {fuel depth : Nat}

theorem value_blanks {b : List Char} (blanks : Blanks b) (cs : List Char) :
    value fuel (b ++ cs) = value fuel cs := by
  cases fuel with
  | zero => rfl
  | succ fuel => simp only [value, blanks.skip]

theorem value_digit {d : Char} (digit : d.isDigit = true) (cs : List Char) :
    value (fuel + 1) (d :: cs) = number (d :: cs) := by
  have other : d ≠ 'n' ∧ d ≠ 't' ∧ d ≠ 'f' ∧ d ≠ '-' ∧ d ≠ '"' ∧ d ≠ '[' ∧ d ≠ '\x7b' := by
    refine ⟨?_, ?_, ?_, ?_, ?_, ?_, ?_⟩ <;> rintro rfl <;> cases digit
  obtain ⟨blank, -⟩ := opens_of_number (.inr digit)
  simp only [value, skipBlanks_cons blank]
  split
  all_goals rename_i same
  · cases same
  · exact absurd (List.cons.inj same).1 other.1
  · exact absurd (List.cons.inj same).1 other.2.1
  · exact absurd (List.cons.inj same).1 other.2.2.1
  · exact absurd (List.cons.inj same).1 other.2.2.2.1
  · exact absurd (List.cons.inj same).1 other.2.2.2.2.1
  · exact absurd (List.cons.inj same).1 other.2.2.2.2.2.1
  · exact absurd (List.cons.inj same).1 other.2.2.2.2.2.2
  · obtain ⟨rfl, rfl⟩ := List.cons.inj same
    rw [if_pos digit]

theorem scalar_passed {j : Json} {t rest : List Char} (spelled : Scalar j t)
    (enough : t.length < fuel) (delimited : Delimited rest) :
    value fuel (t ++ rest) = .ok rest := by
  obtain ⟨fuel, rfl⟩ : ∃ n, fuel = n + 1 := ⟨fuel - 1, by omega⟩
  cases spelled with
  | null => exact word_append "ull".toList rest
  | true => exact word_append "rue".toList rest
  | false => exact word_append "alse".toList rest
  | string quoted =>
    obtain ⟨u, quote, passed⟩ := string_passed quoted (Nat.le_of_lt_succ enough) rest
    rw [quote]
    exact passed
  | number literal denotes =>
    obtain ⟨sign, digits, leading, point, power⟩ := literal
    have passed := number_passed digits leading point power delimited
    simp only [List.append_assoc]
    cases sign with
    | minus => exact passed
    | none =>
      obtain ⟨d, ds, rfl⟩ := List.exists_cons_of_ne_nil digits.1
      rw [List.cons_append] at passed
      exact (value_digit (digits.2 d List.mem_cons_self) _).trans passed

structure Passed (fuel : Nat) : Prop where
  ends {depth : Nat} {j : Json} {t rest : List Char} : Value depth j t → t.length < fuel →
    Delimited rest → value fuel (t ++ rest) = .ok rest

theorem Passed.padded (passed : Passed fuel) {j : Json} {t tail : List Char}
    (spelled : Padded (Value depth) j t) (short : t.length < fuel) (delimited : Delimited tail) :
    ∃ b, Blanks b ∧ value fuel (t ++ tail) = .ok (b ++ tail) := by
  obtain ⟨before, spelled, behind⟩ := spelled
  rename_i b u b'
  simp only [List.length_append] at short
  refine ⟨b', behind, ?_⟩
  rw [List.append_assoc, value_blanks before, List.append_assoc]
  exact passed.ends spelled (by omega) (behind.delimited delimited)

theorem items_passed (passed : ∀ less < fuel, Passed less) {xs : List Json} {t : List Char}
    (spelled : Separated (Padded (Value depth)) xs t) (short : t.length + 1 < fuel)
    (rest : List Char) : items fuel (t ++ ']' :: rest) = .ok rest := by
  induction spelled generalizing fuel with
  | one only =>
    obtain ⟨fuel, rfl⟩ : ∃ n, fuel = n + 1 := ⟨fuel - 1, by omega⟩
    obtain ⟨b, blanks, first⟩ := (passed fuel (Nat.lt_succ_self fuel)).padded only (by omega)
      (delimited_bracket rest)
    simp only [items, first, blanks.skip_cons (c := ']') rfl]
  | @cons x xs t u first others ih =>
    simp only [List.length_append, List.length_cons] at short
    obtain ⟨fuel, rfl⟩ : ∃ n, fuel = n + 1 := ⟨fuel - 1, by omega⟩
    obtain ⟨b, blanks, first⟩ := (passed fuel (Nat.lt_succ_self fuel)).padded first (by omega)
      (delimited_comma (u ++ ']' :: rest))
    rw [List.append_assoc, List.cons_append]
    simp only [items, first, blanks.skip_cons (c := ',') rfl]
    exact ih (fun less h => passed less (by omega)) (by omega)

theorem members_member (passed : Passed fuel) {m : String × Json} {t : List Char}
    (spelled : Padded (Member (Value depth)) m t) (short : t.length < fuel) (rest : List Char) :
    members (fuel + 1) (t ++ ',' :: rest) = members fuel rest ∧
      members (fuel + 1) (t ++ '\x7d' :: rest) = .ok rest := by
  obtain ⟨before, ⟨key, space, space', spelled⟩, behind⟩ := spelled
  rename_i b b' k x t c c' u
  simp only [List.length_append, List.length_cons] at short
  have taken {tail : List Char} (delimited : Delimited tail) : ∃ v,
      skipBlanks (b ++ (t ++ (c ++ ':' :: (c' ++ u)) ++ b') ++ tail) = '"' :: v ∧
        string fuel v = .ok (c ++ ':' :: (c' ++ (u ++ (b' ++ tail)))) ∧
        value fuel (c' ++ (u ++ (b' ++ tail))) = .ok (b' ++ tail) := by
    have enough : t.length ≤ fuel := by omega
    obtain ⟨v, quote, passedKey⟩ :=
      string_passed key enough (c ++ ':' :: (c' ++ (u ++ (b' ++ tail))))
    refine ⟨v, ?_, passedKey, ?_⟩
    · rw [List.append_assoc, before.skip]
      simp only [List.append_assoc, List.cons_append]
      rw [quote, skipBlanks_cons rfl]
    · rw [value_blanks space']
      exact passed.ends spelled (by omega) (behind.delimited delimited)
  constructor
  · obtain ⟨v, quote, passedKey, passedValue⟩ := taken (delimited_comma rest)
    simp only [members, quote, passedKey, space.skip_cons (c := ':') rfl, passedValue,
      behind.skip_cons (c := ',') rfl]
  · obtain ⟨v, quote, passedKey, passedValue⟩ := taken (delimited_brace rest)
    simp only [members, quote, passedKey, space.skip_cons (c := ':') rfl, passedValue,
      behind.skip_cons (c := '\x7d') rfl]

theorem members_passed (passed : ∀ less < fuel, Passed less) {ms : Members Json} {t : List Char}
    (spelled : Separated (Padded (Member (Value depth))) ms t) (short : t.length + 1 < fuel)
    (rest : List Char) : members fuel (t ++ '\x7d' :: rest) = .ok rest := by
  induction spelled generalizing fuel with
  | one only =>
    obtain ⟨fuel, rfl⟩ : ∃ n, fuel = n + 1 := ⟨fuel - 1, by omega⟩
    exact (members_member (passed fuel (Nat.lt_succ_self fuel)) only (by omega) rest).2
  | @cons m ms t u first others ih =>
    simp only [List.length_append, List.length_cons] at short
    obtain ⟨fuel, rfl⟩ : ∃ n, fuel = n + 1 := ⟨fuel - 1, by omega⟩
    have step := members_member (passed fuel (Nat.lt_succ_self fuel)) first (by omega)
    rw [List.append_assoc, List.cons_append, (step _).1]
    exact ih (fun less h => passed less (by omega)) (by omega)

theorem items_skipBlanks (cs : List Char) : items fuel (skipBlanks cs) = items fuel cs := by
  obtain ⟨b, split, blanks⟩ := exists_blanks cs
  cases fuel with
  | zero => rfl
  | succ fuel =>
    have first : value fuel (b ++ skipBlanks cs) = value fuel (skipBlanks cs) :=
      value_blanks blanks (skipBlanks cs)
    rw [← split] at first
    simp only [items, first]

theorem members_skipBlanks (cs : List Char) : members fuel (skipBlanks cs) = members fuel cs := by
  obtain ⟨b, split, blanks⟩ := exists_blanks cs
  cases fuel with
  | zero => rfl
  | succ fuel =>
    have first := blanks.skip (skipBlanks cs)
    rw [← split] at first
    simp only [members, ← first]

theorem container_passed (passed : ∀ less < fuel, Passed less) {j : Json} {t : List Char}
    (spelled : Container (Value depth) j t) (short : t.length < fuel) (rest : List Char) :
    value fuel (t ++ rest) = .ok rest := by
  obtain ⟨fuel, rfl⟩ : ∃ n, fuel = n + 1 := ⟨fuel - 1, by omega⟩
  have passed : ∀ less < fuel, Passed less := fun less h => passed less (by omega)
  have bracket (cs : List Char) : skipBlanks ('[' :: cs) = '[' :: cs := skipBlanks_cons rfl cs
  have brace (cs : List Char) : skipBlanks ('\x7b' :: cs) = '\x7b' :: cs := skipBlanks_cons rfl cs
  cases spelled with
  | noItems blanks =>
    simp only [List.cons_append, List.append_assoc, List.nil_append, value, bracket,
      blanks.skip_cons (c := ']') rfl]
  | @items xs t spelled =>
    simp only [List.length_cons, List.length_append] at short
    have all := items_passed passed spelled (by omega) rest
    obtain ⟨c, cs, next, closing⟩ := separated_head Value.opens spelled (']' :: rest)
    rw [← items_skipBlanks, next] at all
    simp only [List.cons_append, List.append_assoc, List.nil_append, value, bracket, next]
    split
    · rename_i same
      cases same
    · rename_i same
      exact absurd (List.cons.inj same).1 closing
    · exact all
  | noMembers blanks =>
    simp only [List.cons_append, List.append_assoc, List.nil_append, value, brace,
      blanks.skip_cons (c := '\x7d') rfl]
  | @members ms t spelled =>
    simp only [List.length_cons, List.length_append] at short
    have all := members_passed passed spelled (by omega) rest
    have quote {m : String × Json} {t : List Char} (spelled : Member (Value depth) m t) :
        ∃ c cs, t = c :: cs ∧ isBlank c = false ∧ c = '"' := by
      obtain ⟨⟨_⟩, -, -, -⟩ := spelled
      exact ⟨'"', _, rfl, rfl, rfl⟩
    obtain ⟨_, cs, next, rfl⟩ := separated_head quote spelled ('\x7d' :: rest)
    rw [← members_skipBlanks, next] at all
    simp only [List.cons_append, List.append_assoc, List.nil_append, value, brace, next]
    exact all

theorem passed (fuel : Nat) : Passed fuel := by
  -- what stands in a container is passed over with less fuel
  induction fuel using Nat.strongRecOn with
  | _ fuel ih =>
    constructor
    intro depth j t rest spelled short delimited
    cases depth with
    | zero => exact scalar_passed spelled short delimited
    | succ depth =>
      rcases spelled with scalar | container
      · exact scalar_passed scalar short delimited
      · exact container_passed ih container short rest

end Values

end JsonFilter.Json.Skip
