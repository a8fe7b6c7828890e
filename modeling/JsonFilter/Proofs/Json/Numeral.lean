import JsonFilter.Json.Printer
import JsonFilter.Proofs.Json.Grammar.Literal

namespace JsonFilter

theorem Decimal.isDigit_of_mem_digitChars {n : Nat} {c : Char} (h : c ∈ digitChars n) :
    c.isDigit = true := Nat.isDigit_of_mem_toDigits (by decide) (by decide) h

theorem Decimal.digitChars_ne_nil (n : Nat) : digitChars n ≠ [] := Nat.toDigits_ne_nil

theorem Decimal.head_digitChars {n : Nat} {ds : List Char} (h : digitChars n = '0' :: ds) :
    n = 0 := by
  induction n using Nat.strongRecOn generalizing ds with
  | _ n ih =>
    by_cases small : n < 10
    · have all : ∀ n < 10, n.digitChar = '0' → n = 0 := by decide
      rw [digitChars, Nat.toDigits_of_lt_base small] at h
      exact all n small (List.cons.inj h).1
    · have split := Nat.toDigits_of_base_le (b := 10) (by decide) (Nat.le_of_not_lt small)
      rw [digitChars, split] at h
      obtain ⟨d, tail, hd⟩ := List.exists_cons_of_ne_nil (digitChars_ne_nil (n / 10))
      have first : d = '0' := by
        rw [digitChars] at hd
        rw [hd] at h
        exact (List.cons.inj h).1
      have zero := ih (n / 10) (by omega) (first ▸ hd)
      omega

namespace Json

open Grammar

theorem literal_intChars (i : Int) :
    Literal ⟨decide (i < 0), Decimal.digitChars i.natAbs, none, none⟩ (Decimal.intChars i) := by
  have digits : Digits (Decimal.digitChars i.natAbs) :=
    ⟨Decimal.digitChars_ne_nil i.natAbs, fun _ => Decimal.isDigit_of_mem_digitChars⟩
  have leading : (Decimal.digitChars i.natAbs).head? = some '0' →
      Decimal.digitChars i.natAbs = ['0'] := by
    intro zero
    obtain ⟨d, ds, chars⟩ := List.exists_cons_of_ne_nil digits.1
    rw [chars] at zero
    cases zero
    rw [Decimal.head_digitChars chars]
    rfl
  unfold Decimal.intChars
  split
  · rename_i negative
    have literal := Literal.mk .minus digits leading .none .none
    simpa [negative] using literal
  · rename_i positive
    have literal := Literal.mk .none digits leading .none .none
    simpa [positive] using literal

namespace Numeral

theorem natOf_eq_ofDigitChars (ds : List Char) : natOf ds = Nat.ofDigitChars 10 ds 0 := by
  rw [natOf, Nat.ofDigitChars_eq_foldl]
  congr 1
  funext m c
  rw [digit, Nat.mul_comm]

theorem natOf_digitChars (n : Nat) : natOf (Decimal.digitChars n) = n := by
  rw [natOf_eq_ofDigitChars]
  exact Nat.ofDigitChars_ten_toDigits

theorem number_digitChars {i : Int} (h : (Number.int i).InRange) :
    number? ⟨decide (i < 0), Decimal.digitChars i.natAbs, none, none⟩ = some (.int i) := by
  obtain ⟨low, high⟩ := h
  have whole : isWhole ⟨decide (i < 0), Decimal.digitChars i.natAbs, none, none⟩ = true := rfl
  simp only [number?, natOf_digitChars, whole, true_and]
  by_cases negative : i < 0
  · have value : -(i.natAbs : Int) = i := by omega
    have fits : 0 < i.natAbs ∧ i.natAbs ≤ 0x8000000000000000 := by omega
    simp only [negative, decide_true, not_true, false_and, if_false, true_and, if_pos fits, value]
  · have value : (i.natAbs : Int) = i := by omega
    have fits : i.natAbs < wordLimit := by
      unfold wordLimit
      omega
    simp only [negative, decide_false, Bool.false_eq_true, not_false_eq_true, true_and, if_pos fits,
      value]

end Numeral

theorem readNumber_intChars {i : Int} (h : (Number.int i).InRange) {rest : List Char}
    (delimited : Delimited rest) :
    readNumber (Decimal.intChars i ++ rest) = .ok (.int i, rest) :=
  readNumber_complete (literal_intChars i) (Numeral.number_digitChars h) delimited

theorem head_intChars (i : Int) :
    ∃ c cs, Decimal.intChars i = c :: cs ∧ (c = '-' ∨ c.isDigit = true) := (literal_intChars i).head

end Json

end JsonFilter
