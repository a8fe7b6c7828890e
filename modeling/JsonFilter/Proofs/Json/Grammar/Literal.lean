import JsonFilter.Proofs.Json.Grammar
import JsonFilter.Proofs.Json.Reader
import Mathlib.Data.List.TakeDrop

namespace JsonFilter.Json

open Grammar

namespace Numeral

theorem splitDigits_eq {cs ds rest : List Char} (h : splitDigits cs = (ds, rest)) :
    cs = ds ++ rest ∧ ∀ c ∈ ds, c.isDigit = true := by
  rw [splitDigits, List.span_eq_takeWhile_dropWhile] at h
  obtain ⟨rfl, rfl⟩ := Prod.mk.inj h
  exact ⟨List.takeWhile_append_dropWhile.symm, List.all_eq_true.mp List.all_takeWhile⟩

theorem splitDigits_append {ds rest : List Char} (digits : ∀ c ∈ ds, c.isDigit = true)
    (stop : ∀ c ∈ rest.head?, c.isDigit = false) : splitDigits (ds ++ rest) = (ds, rest) := by
  rw [splitDigits, List.span_eq_takeWhile_dropWhile, List.takeWhile_append_of_pos digits,
    List.dropWhile_append_of_pos digits]
  cases rest with
  | nil => simp
  | cons c cs => simp [stop c rfl]

theorem exponentPart_sound {cs ds rest : List Char} {negative : Bool}
    (read : exponentPart cs = .ok ((negative, ds), rest)) :
    ∃ s, cs = s ++ (ds ++ rest) ∧ ExponentSign negative s ∧ Digits ds := by
  unfold exponentPart at read
  dsimp only at read
  split at read
  · cases read
  · cases read
  · rename_i nonempty split
    cases read
    obtain ⟨same, digits⟩ := splitDigits_eq split
    -- what the digits are split from is known only once the sign is
    clear split
    revert same
    split
    · exact fun same => ⟨['+'], by rw [← same]; rfl, .plus, nonempty, digits⟩
    · exact fun same => ⟨['-'], by rw [← same]; rfl, .minus, nonempty, digits⟩
    · exact fun same => ⟨[], same, .none, nonempty, digits⟩

theorem withExponent_sound {n n' : Numeral} {cs rest : List Char} (absent : n.exponent = none)
    (read : withExponent n cs = .ok (n', rest)) :
    ∃ x e, cs = e ++ rest ∧ Exponent x e ∧ n' = { n with exponent := x } := by
  have marked {c : Char} {cs : List Char} (letter : c = 'e' ∨ c = 'E')
      (read : (exponentPart cs >>= fun p => .ok ({ n with exponent := some p.1 }, p.2)) =
        .ok (n', rest)) :
      ∃ x e, c :: cs = e ++ rest ∧ Exponent x e ∧ n' = { n with exponent := x } := by
    obtain ⟨⟨⟨negative, ds⟩, behind⟩, power, same⟩ := bind_eq_ok.mp read
    obtain ⟨s, rfl, sign, digits⟩ := exponentPart_sound power
    cases same
    exact ⟨_, _, by simp, .some letter sign digits, rfl⟩
  unfold withExponent at read
  split at read
  · exact marked (.inl rfl) read
  · exact marked (.inr rfl) read
  · cases read
    exact ⟨none, [], rfl, .none, by rw [← absent]⟩

theorem withFraction_sound {n n' : Numeral} {cs rest : List Char} (absent : n.fraction = none)
    (unscaled : n.exponent = none) (read : withFraction n cs = .ok (n', rest)) :
    ∃ fraction exponent f e, cs = f ++ (e ++ rest) ∧ Fraction fraction f ∧ Exponent exponent e ∧
      n' = { n with fraction, exponent } := by
  unfold withFraction at read
  split at read
  · split at read
    · cases read
    · cases read
    · rename_i ds _ _ nonempty split
      obtain ⟨rfl, digits⟩ := splitDigits_eq split
      obtain ⟨x, e, rfl, power, same⟩ :=
        withExponent_sound (show { n with fraction := some ds }.exponent = none from unscaled) read
      exact ⟨_, x, _, e, by simp, .some ⟨nonempty, digits⟩, power, same⟩
  · obtain ⟨x, e, rfl, power, same⟩ := withExponent_sound unscaled read
    exact ⟨none, x, [], e, rfl, .none, power, by rw [same, ← absent]⟩

theorem unsigned_sound {negative : Bool} {n : Numeral} {cs rest : List Char}
    (read : unsigned negative cs = .ok (n, rest)) {s : List Char} (sign : Sign negative s) :
    ∃ t, s ++ cs = t ++ rest ∧ Literal n t := by
  unfold unsigned at read
  split at read
  · cases read
  · cases read
  · cases read
  · rename_i ds behind _ nonempty leading split
    obtain ⟨rfl, digits⟩ := splitDigits_eq split
    obtain ⟨x, y, f, e, rfl, point, power, rfl⟩ := withFraction_sound rfl rfl read
    have alone : ds.head? = some '0' → ds = ['0'] := by
      intro zero
      rcases ds with _ | ⟨c, _ | ⟨d, ds⟩⟩
      · cases zero
      · cases zero
        rfl
      · cases zero
        exact (leading d ds rfl).elim
    exact ⟨_, by simp, .mk sign ⟨nonempty, digits⟩ alone point power⟩

theorem read_sound {n : Numeral} {cs rest : List Char} (h : Numeral.read cs = .ok (n, rest)) :
    ∃ t, cs = t ++ rest ∧ Literal n t := by
  unfold Numeral.read at h
  split at h
  · exact unsigned_sound h .minus
  · exact unsigned_sound h .none

theorem withExponent_delimited (n : Numeral) {rest : List Char} (h : Delimited rest) :
    withExponent n rest = .ok (n, rest) := by
  unfold withExponent
  split
  · exact absurd rfl (h _ rfl).2.2.1
  · exact absurd rfl (h _ rfl).2.2.2
  · rfl

theorem exponentPart_complete {negative : Bool} {s ds rest : List Char}
    (sign : ExponentSign negative s) (digits : Digits ds) (delimited : Delimited rest) :
    exponentPart (s ++ (ds ++ rest)) = .ok ((negative, ds), rest) := by
  obtain ⟨nonempty, digits⟩ := digits
  have split := splitDigits_append digits (fun c hc => (delimited c hc).1)
  obtain ⟨d, ds, rfl⟩ := List.exists_cons_of_ne_nil nonempty
  have first : d.isDigit = true := digits d List.mem_cons_self
  rw [List.cons_append] at split ⊢
  cases sign with
  | plus => simp only [exponentPart, List.cons_append, List.nil_append, split]
  | minus => simp only [exponentPart, List.cons_append, List.nil_append, split]
  | none =>
    have plus : d ≠ '+' := by
      rintro rfl
      cases first
    have minus : d ≠ '-' := by
      rintro rfl
      cases first
    simp [exponentPart, plus, minus, split]

theorem withExponent_complete {n : Numeral} {x : Option (Bool × List Char)} {e rest : List Char}
    (absent : n.exponent = none) (spelled : Exponent x e) (delimited : Delimited rest) :
    withExponent n (e ++ rest) = .ok ({ n with exponent := x }, rest) := by
  cases spelled with
  | none =>
    rw [List.nil_append, withExponent_delimited n delimited, ← absent]
  | some letter sign digits =>
    have power := exponentPart_complete sign digits delimited
    rcases letter with rfl | rfl
    · simp only [List.cons_append, List.append_assoc, withExponent, power, Bind.bind, Except.bind]
      rfl
    · simp only [List.cons_append, List.append_assoc, withExponent, power, Bind.bind, Except.bind]
      rfl

theorem Exponent.stop {x : Option (Bool × List Char)} {e rest : List Char} (spelled : Exponent x e)
    (delimited : Delimited rest) : ∀ c ∈ (e ++ rest).head?, c.isDigit = false ∧ c ≠ '.' := by
  cases spelled with
  | none => exact fun c hc => ⟨(delimited c hc).1, (delimited c hc).2.1⟩
  | some letter sign digits =>
    rintro c ⟨⟩
    rcases letter with rfl | rfl
    · exact ⟨rfl, by decide⟩
    · exact ⟨rfl, by decide⟩

theorem withFraction_complete {n : Numeral} {y : Option (List Char)}
    {x : Option (Bool × List Char)} {f e rest : List Char} (absent : n.fraction = none)
    (unscaled : n.exponent = none) (point : Fraction y f) (power : Exponent x e)
    (delimited : Delimited rest) :
    withFraction n (f ++ (e ++ rest)) = .ok ({ n with fraction := y, exponent := x }, rest) := by
  cases point with
  | none =>
    have scaled := withExponent_complete unscaled power delimited
    unfold withFraction
    split
    · rename_i same
      have first : '.' ∈ (e ++ rest).head? := by
        rw [← List.nil_append (e ++ rest), same]
        rfl
      exact absurd rfl (Exponent.stop power delimited '.' first).2
    · rw [← absent]
      exact scaled
  | @some ds digits =>
    obtain ⟨nonempty, digits⟩ := digits
    have split := splitDigits_append digits (fun c hc => (Exponent.stop power delimited c hc).1)
    have absent : { n with fraction := some ds }.exponent = none := unscaled
    have scaled := withExponent_complete absent power delimited
    obtain ⟨d, ds, rfl⟩ := List.exists_cons_of_ne_nil nonempty
    simp only [List.cons_append, withFraction] at split ⊢
    simp only [split, scaled]

theorem unsigned_complete (negative : Bool) {whole : List Char} {y : Option (List Char)}
    {x : Option (Bool × List Char)} {f e rest : List Char} (digits : Digits whole)
    (leading : whole.head? = some '0' → whole = ['0']) (point : Fraction y f) (power : Exponent x e)
    (delimited : Delimited rest) :
    unsigned negative (whole ++ (f ++ (e ++ rest))) = .ok (⟨negative, whole, y, x⟩, rest) := by
  obtain ⟨nonempty, digits⟩ := digits
  have stop : ∀ c ∈ (f ++ (e ++ rest)).head?, c.isDigit = false := by
    cases point with
    | none => exact fun c hc => (Exponent.stop power delimited c hc).1
    | some digits =>
      rintro c ⟨⟩
      rfl
  have scaled : withFraction ⟨negative, whole, none, none⟩ (f ++ (e ++ rest)) =
      .ok (⟨negative, whole, y, x⟩, rest) := withFraction_complete rfl rfl point power delimited
  unfold unsigned
  rw [splitDigits_append digits stop]
  split
  · rename_i empty
    exact absurd (Prod.mk.inj empty).1 nonempty
  · rename_i empty
    exact absurd (Prod.mk.inj empty).1 nonempty
  · rename_i zero
    have same := (Prod.mk.inj zero).1
    have alone := leading (by rw [same]; rfl)
    rw [same] at alone
    cases alone
  · rename_i same
    obtain ⟨rfl, rfl⟩ := Prod.mk.inj same
    exact scaled

theorem read_complete {n : Numeral} {t rest : List Char} (spelled : Literal n t)
    (delimited : Delimited rest) : Numeral.read (t ++ rest) = .ok (n, rest) := by
  cases spelled with
  | @mk negative whole y x s f e sign digits leading point power =>
    have read := unsigned_complete negative digits leading point power delimited
    simp only [List.append_assoc]
    cases sign with
    | minus => exact read
    | none =>
      obtain ⟨d, ds, rfl⟩ := List.exists_cons_of_ne_nil digits.1
      have first : d.isDigit = true := digits.2 d List.mem_cons_self
      have minus : d ≠ '-' := by
        rintro rfl
        cases first
      unfold Numeral.read
      split
      · rename_i same
        exact absurd (List.cons.inj same).1 minus
      · exact read

end Numeral

theorem readNumber_sound {v : Number} {cs rest : List Char}
    (read : readNumber cs = .ok (v, rest)) :
    ∃ n t, cs = t ++ rest ∧ Literal n t ∧ n.number? = some v := by
  obtain ⟨⟨n, behind⟩, literal, denoted⟩ := bind_eq_ok.mp read
  obtain ⟨t, rfl, spelled⟩ := Numeral.read_sound literal
  dsimp only at denoted
  split at denoted
  · rename_i denotes
    cases denoted
    exact ⟨n, t, rfl, spelled, denotes⟩
  · cases denoted

theorem readNumber_complete {n : Numeral} {v : Number} {t rest : List Char} (spelled : Literal n t)
    (denotes : n.number? = some v) (delimited : Delimited rest) :
    readNumber (t ++ rest) = .ok (v, rest) := by
  simp only [readNumber, Numeral.read_complete spelled delimited, Bind.bind, Except.bind, denotes]
  rfl

theorem Grammar.Literal.head {n : Numeral} {t : List Char} (spelled : Literal n t) :
    ∃ c cs, t = c :: cs ∧ (c = '-' ∨ c.isDigit = true) := by
  cases spelled with
  | mk sign digits leading point power =>
    cases sign with
    | minus => exact ⟨_, _, rfl, .inl rfl⟩
    | none =>
      obtain ⟨d, ds, rfl⟩ := List.exists_cons_of_ne_nil digits.1
      exact ⟨d, _, rfl, .inr (digits.2 d List.mem_cons_self)⟩

end JsonFilter.Json
