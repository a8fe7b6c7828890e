import JsonFilter.Proofs.Json.Float
import JsonFilter.Proofs.Json.Source.Unique

namespace JsonFilter

open Json.Grammar

namespace Json

structure Integer where
  negative : Bool
  digits : List Char
  spelled : Digits digits
  leading : digits.head? = some '0' → digits = ['0']

namespace Integer

def numeral (n : Integer) : Numeral := ⟨n.negative, n.digits, none, none⟩

def text (n : Integer) : String := String.ofList (if n.negative then '-' :: n.digits else n.digits)

def size (n : Integer) : Nat := Nat.ofDigitChars 10 n.digits 0

def value (n : Integer) : Int := if n.negative then -n.size else n.size

/-- The value fits a signed or an unsigned word, and is not a zero with a sign. -/
def Exact (n : Integer) : Prop :=
  -0x8000000000000000 ≤ n.value ∧ n.value < 0x10000000000000000 ∧ n.text ≠ "-0"

end Integer

end Json

namespace Decimal

theorem digitChar_digit {c : Char} (h : c.isDigit = true) :
    c.toNat - '0'.toNat < 10 ∧ (c.toNat - '0'.toNat).digitChar = c := by
  obtain ⟨low, high⟩ : 48 ≤ c.toNat ∧ c.toNat ≤ 57 := by
    simpa [Char.isDigit, UInt32.le_iff_toNat_le] using h
  have zero : '0'.toNat = 48 := rfl
  have small : c.toNat - '0'.toNat < 10 := by omega
  refine ⟨small, Char.toNat_inj.mp ?_⟩
  rw [Nat.toNat_digitChar_of_lt_ten small]
  omega

theorem digitChars_ofDigitChars {n : Nat} {ds : List Char} (pos : 0 < n)
    (digits : ∀ c ∈ ds, c.isDigit = true) :
    digitChars (Nat.ofDigitChars 10 ds n) = digitChars n ++ ds := by
  induction ds generalizing n with
  | nil => simp [Nat.ofDigitChars_eq_foldl]
  | cons d ds ih =>
    obtain ⟨first, others⟩ := List.forall_mem_cons.mp digits
    obtain ⟨small, same⟩ := digitChar_digit first
    have step : digitChars n ++ [d] = digitChars (10 * n + (d.toNat - '0'.toNat)) := by
      have last := Nat.toDigits_append_toDigits (b := 10) (by decide) pos small
      rwa [Nat.toDigits_of_lt_base small, same] at last
    rw [Nat.ofDigitChars_cons, ih (by omega) others, ← step, List.append_assoc]
    rfl

end Decimal

namespace Json.Integer

variable (n : Integer)

theorem digitChars_size : Decimal.digitChars n.size = n.digits := by
  rw [size]
  obtain ⟨negative, digits, ⟨some, all⟩, leading⟩ := n
  obtain ⟨d, ds, rfl⟩ := List.exists_cons_of_ne_nil some
  obtain ⟨first, others⟩ := List.forall_mem_cons.mp all
  obtain ⟨small, same⟩ := Decimal.digitChar_digit first
  by_cases zero : d = '0'
  · subst zero
    obtain ⟨-, rfl⟩ := List.cons.inj (leading rfl)
    have value : Nat.ofDigitChars 10 ['0'] 0 = 0 := rfl
    rw [value]
    rfl
  · have pos : 0 < d.toNat - '0'.toNat := by
      refine Nat.pos_of_ne_zero fun none => zero ?_
      rw [← same, none]
      rfl
    rw [Nat.ofDigitChars_cons, Nat.mul_zero, Nat.zero_add,
      Decimal.digitChars_ofDigitChars pos others, Decimal.digitChars,
      Nat.toDigits_of_lt_base small, same]
    rfl

theorem literal : Literal n.numeral n.text.toList := by
  obtain ⟨negative, digits, spelled, leading⟩ := n
  rw [text, String.toList_ofList]
  cases negative with
  | false => simpa [numeral] using Literal.mk .none spelled leading .none .none
  | true => simpa [numeral] using Literal.mk .minus spelled leading .none .none

theorem text_eq_minusZero :
    n.text = "-0" ↔ n.negative = true ∧ n.size = 0 := by
  constructor
  · intro same
    have chars := congrArg String.toList same
    rw [text, String.toList_ofList] at chars
    cases sign : n.negative with
    | false =>
      rw [sign] at chars
      have minus := n.spelled.2 '-' (by simp_all)
      cases minus
    | true =>
      rw [sign] at chars
      obtain ⟨-, digits⟩ := List.cons.inj chars
      exact ⟨rfl, by rw [size, digits]; rfl⟩
  · rintro ⟨negative, zero⟩
    have digits := n.digitChars_size
    rw [zero] at digits
    rw [text, negative, ← digits]
    rfl

theorem intChars_value (signed : n.text ≠ "-0") : Decimal.intChars n.value = n.text.toList := by
  have digits := n.digitChars_size
  rw [ne_eq, text_eq_minusZero] at signed
  rw [text, String.toList_ofList]
  unfold Decimal.intChars value
  cases negative : n.negative with
  | false => simp [digits]
  | true =>
    have pos : 0 < n.size := Nat.pos_of_ne_zero fun zero => signed ⟨negative, zero⟩
    simp [digits, pos]

theorem number?_numeral : n.numeral.number? =
    if ¬ n.negative ∧ n.size < Numeral.wordLimit then some (.int n.size)
    else if n.negative ∧ 0 < n.size ∧ n.size ≤ 0x8000000000000000 then some (.int (-n.size))
    else n.numeral.float?.map .float := by
  have whole : n.numeral.isWhole = true := rfl
  have size : Numeral.natOf n.numeral.whole = n.size := Numeral.natOf_eq_ofDigitChars n.digits
  simp only [Numeral.number?, whole, size, true_and]
  rfl

theorem number?_exact (exact : n.Exact) : n.numeral.number? = some (.int n.value) := by
  obtain ⟨low, high, signed⟩ := exact
  rw [ne_eq, text_eq_minusZero] at signed
  rw [number?_numeral]
  unfold value at low high ⊢
  cases sign : n.negative with
  | false =>
    simp only [sign, Bool.false_eq_true, if_false] at high
    have fits : n.size < Numeral.wordLimit := by
      unfold Numeral.wordLimit
      omega
    simp [fits]
  | true =>
    simp only [sign, if_true, true_and] at low signed
    have fits : 0 < n.size ∧ n.size ≤ 0x8000000000000000 := by omega
    simp [fits]

theorem number?_inexact (inexact : ¬ n.Exact) :
    n.numeral.number? = n.numeral.float?.map .float := by
  rw [Exact, ne_eq, text_eq_minusZero] at inexact
  rw [number?_numeral]
  unfold value at inexact
  cases sign : n.negative with
  | false =>
    simp only [sign, Bool.false_eq_true, if_false, false_and, not_false_eq_true, and_true]
      at inexact
    have beyond : ¬ n.size < Numeral.wordLimit := by
      unfold Numeral.wordLimit
      omega
    simp [beyond]
  | true =>
    simp only [sign, if_true, true_and] at inexact
    have beyond : ¬ (0 < n.size ∧ n.size ≤ 0x8000000000000000) := by omega
    simp [beyond]

theorem text_ne_float (x : Float) : String.ofList (Number.float x).chars ≠ n.text := by
  intro same
  have chars := congrArg String.toList same
  rw [String.toList_ofList] at chars
  rcases Number.chars_float x with null | ⟨m, literal, fractional⟩
  · obtain ⟨c, cs, text, first⟩ := n.literal.head
    rw [null, text] at chars
    cases chars
    revert first
    decide
  · rw [chars] at literal
    obtain ⟨rfl, -⟩ := literal.unique n.literal Delimited.nil Delimited.nil rfl
    cases fractional

theorem text_ne_null : "null" ≠ n.text := by
  intro same
  obtain ⟨c, cs, text, first⟩ := n.literal.head
  rw [← same] at text
  cases text
  revert first
  decide

end Json.Integer

end JsonFilter
