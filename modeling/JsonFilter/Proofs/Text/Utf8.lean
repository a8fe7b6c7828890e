import JsonFilter.Text.Utf8
import Mathlib.Data.String.Basic

namespace JsonFilter.Utf8

/-- A larger number is written later, whatever is written behind the two. -/
def Grows (f : Nat → List Nat) : Prop := ∀ m n, m < n → ∀ s t, f m ++ s < f n ++ t

theorem Grows.lead (base : Nat) : Grows fun n => [base + n] := by
  intro m n less s t
  exact List.cons_lt_cons_iff.mpr (.inl (by omega))

theorem Grows.continued {f : Nat → List Nat} (h : Grows f) (base : Nat) :
    Grows fun n => f (n / 64) ++ [base + n % 64] := by
  intro m n less s t
  have split : m / 64 < n / 64 ∨ m / 64 = n / 64 ∧ m % 64 < n % 64 := by omega
  rw [List.append_assoc, List.append_assoc]
  rcases split with high | ⟨same, low⟩
  · exact h _ _ high _ _
  · rw [same]
    exact List.append_left_lt (List.cons_lt_cons_iff.mpr (.inl (by omega)))

theorem grows_two : Grows fun n => [0xC0 + n / 64, 0x80 + n % 64] := (Grows.lead 0xC0).continued 0x80

theorem grows_three : Grows fun n => [0xE0 + n / 4096, 0x80 + n / 64 % 64, 0x80 + n % 64] := by
  have h := ((Grows.lead 0xE0).continued 0x80).continued 0x80
  simp only [Nat.div_div_eq_div_mul] at h
  exact h

theorem grows_four : Grows fun n =>
    [0xF0 + n / 262144, 0x80 + n / 4096 % 64, 0x80 + n / 64 % 64, 0x80 + n % 64] := by
  have h := (((Grows.lead 0xF0).continued 0x80).continued 0x80).continued 0x80
  simp only [Nat.div_div_eq_div_mul] at h
  exact h

theorem encodeChar_append_lt {c d : Char} (h : c < d) (s t : List Nat) :
    encodeChar c ++ s < encodeChar d ++ t := by
  have less : c.toNat < d.toNat := h
  have first {a b : Nat} {as bs : List Nat} (h : a < b) : a :: as < b :: bs :=
    List.cons_lt_cons_iff.mpr (.inl h)
  simp only [encodeChar]
  split_ifs
  all_goals first
    | exact grows_two _ _ less s t
    | exact grows_three _ _ less s t
    | exact grows_four _ _ less s t
    | exact first (by omega)

theorem encodeChar_ne_nil (c : Char) : encodeChar c ≠ [] := by
  simp only [encodeChar]
  split_ifs
  all_goals exact List.cons_ne_nil _ _

theorem flatMap_encodeChar_lt {cs ds : List Char} (h : cs < ds) :
    cs.flatMap encodeChar < ds.flatMap encodeChar := by
  induction ds generalizing cs with
  | nil => exact absurd h (List.not_lt_nil cs)
  | cons d ds ih =>
    cases cs with
    | nil =>
      obtain ⟨b, bs, bytes⟩ := List.exists_cons_of_ne_nil (encodeChar_ne_nil d)
      rw [List.flatMap_nil, List.flatMap_cons, bytes]
      exact List.nil_lt_cons b _
    | cons c cs =>
      rw [List.flatMap_cons, List.flatMap_cons]
      rcases List.cons_lt_cons_iff.mp h with less | ⟨rfl, less⟩
      · exact encodeChar_append_lt less _ _
      · exact List.append_left_lt (ih less)

theorem encode_lt_encode {a b : String} : encode a < encode b ↔ a < b := by
  constructor
  · intro h
    rcases lt_trichotomy a b with less | rfl | more
    · exact less
    · exact absurd h (lt_irrefl _)
    · exact absurd h (lt_asymm (flatMap_encodeChar_lt more))
  · exact fun h => flatMap_encodeChar_lt h

end JsonFilter.Utf8
