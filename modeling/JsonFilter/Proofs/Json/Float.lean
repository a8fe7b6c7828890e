import JsonFilter.Proofs.Json.Numeral

namespace JsonFilter

open Json.Grammar

namespace Binary

theorem Ratio.scaled_pos {r : Ratio} (h : 0 < r.num) (shift : Int) : 0 < (r.scaled shift).num := by
  unfold scaled
  split
  · exact Nat.mul_pos h (Nat.pow_pos (by decide))
  · exact h

theorem Quarters.ratio_pos (q : Quarters) {count : Nat} (h : 0 < count) :
    0 < (q.ratio count).num := by
  unfold ratio
  split
  · rw [Nat.shiftLeft_eq]
    exact Nat.mul_pos h (Nat.pow_pos (by decide))
  · exact h

theorem Quarters.digits_pos {q : Quarters} {d : Decimal} (apart : q.lowGap < 4 * q.mantissa)
    (h : q.holds d = true) : 0 < d.digits := by
  have low := Ratio.scaled_pos (q.ratio_pos (Nat.sub_pos_of_lt apart)) (-d.exponent)
  rcases Nat.eq_zero_or_pos d.digits with zero | pos
  · simp only [holds, zero, Nat.zero_mul] at h
    split at h
    · have := (of_decide_eq_true h).1
      omega
    · have := (of_decide_eq_true h).1
      omega
  · exact pos

theorem Quarters.onGrid?_pos {q : Quarters} {e : Int} {d : Decimal}
    (apart : q.lowGap < 4 * q.mantissa) (h : q.onGrid? e = some d) : 0 < d.digits := by
  simp only [onGrid?] at h
  split at h
  · rename_i below above
    cases h
    split
    · exact digits_pos apart below
    · exact digits_pos apart above
  · rename_i below above
    cases h
    exact digits_pos apart below
  · cases h
    exact Nat.succ_pos _
  · cases h

end Binary

namespace Decimal

def Proper (d : Decimal) : Prop := d.digits = 0 → d.exponent = 0

theorem Proper.strip {d : Decimal} (h : d.Proper) (fuel : Nat) : (d.strip fuel).Proper := by
  induction fuel generalizing d with
  | zero => exact h
  | succ fuel ih =>
    unfold Decimal.strip
    split
    · rename_i trailing
      refine ih fun zero => ?_
      dsimp only at zero
      omega
    · exact h

theorem proper_shortest {m : Nat} (h : m ≠ 0) (e : Int) : (Binary.shortest m e).Proper := by
  let q := Binary.Quarters.ofParts m e
  have apart : q.lowGap < 4 * q.mantissa := by
    simp only [q, Binary.Quarters.ofParts]
    split <;> omega
  have found (grids : List Int) : ((grids.findSome? q.onGrid?).getD ⟨0, 0⟩).Proper := by
    cases hit : grids.findSome? q.onGrid? with
    | none => exact fun _ => rfl
    | some d =>
      obtain ⟨grid, -, hit⟩ := List.exists_of_findSome?_eq_some hit
      have pos := Binary.Quarters.onGrid?_pos apart hit
      exact fun zero => absurd zero (Nat.ne_of_gt pos)
  exact (found _).strip 17

theorem digits_digitChars (n : Nat) : Digits (digitChars n) :=
  ⟨digitChars_ne_nil n, fun _ => isDigit_of_mem_digitChars⟩

theorem isDigit_of_mem_zeros {n : Nat} {c : Char} (h : c ∈ List.replicate n '0') :
    c.isDigit = true := by
  rw [List.eq_of_mem_replicate h]
  rfl

theorem literal_positional {digits : List Char} {whole : Int} (h : Digits digits)
    (leading : digits.head? = some '0' → digits = ['0'] ∧ whole ≤ 1) :
    ∃ front back, Literal ⟨false, front, some back, none⟩ (positional digits whole) := by
  obtain ⟨nonempty, all⟩ := h
  unfold positional
  split
  · refine ⟨['0'], List.replicate (-whole).toNat '0' ++ digits, ?_⟩
    have back : Digits (List.replicate (-whole).toNat '0' ++ digits) := by
      refine ⟨by simp [nonempty], fun c hc => ?_⟩
      exact (List.mem_append.mp hc).elim isDigit_of_mem_zeros (all c)
    have zero : Digits ['0'] := ⟨by simp, by simp⟩
    have literal := Literal.mk .none zero (fun _ => rfl) (.some back) .none
    simpa using literal
  · rename_i large
    obtain ⟨d, ds, rfl⟩ := List.exists_cons_of_ne_nil nonempty
    obtain ⟨n, count⟩ : ∃ n, whole.toNat = n + 1 := ⟨whole.toNat - 1, by omega⟩
    rw [count]
    let front := (d :: ds).take (n + 1) ++
      List.replicate (n + 1 - ((d :: ds).take (n + 1)).length) '0'
    let back := if ((d :: ds).drop (n + 1)).isEmpty then ['0'] else (d :: ds).drop (n + 1)
    have frontDigits : Digits front := by
      refine ⟨by simp [front], fun c hc => ?_⟩
      rcases List.mem_append.mp hc with hc | hc
      · exact all c (List.mem_of_mem_take hc)
      · exact isDigit_of_mem_zeros hc
    have backDigits : Digits back := by
      simp only [back]
      split
      · exact ⟨by simp, by simp⟩
      · rename_i some
        exact ⟨by simpa using some, fun c hc => all c (List.mem_of_mem_drop hc)⟩
    have alone : front.head? = some '0' → front = ['0'] := by
      intro zero
      obtain ⟨single, small⟩ := leading (by simpa [front] using zero)
      have first : n = 0 := by omega
      simp [front, single, first]
    have literal := Literal.mk .none frontDigits alone (.some backDigits) .none
    exact ⟨front, back, by simpa [front, back] using literal⟩

theorem exponentSign_intChars (plus : Bool) (e : Int) : ∃ negative s ds, ExponentSign negative s ∧
    Digits ds ∧ (if plus && e ≥ 0 then ['+'] else []) ++ intChars e = s ++ ds := by
  unfold intChars
  by_cases negative : e < 0
  · have sign : (plus && decide (e ≥ 0)) = false := by simp [negative]
    exact ⟨true, ['-'], _, .minus, digits_digitChars e.natAbs, by simp [sign, negative]⟩
  · cases plus with
    | true =>
      have sign : e ≥ 0 := by omega
      exact ⟨false, ['+'], _, .plus, digits_digitChars e.natAbs, by simp [sign, negative]⟩
    | false => exact ⟨false, [], _, .none, digits_digitChars e.natAbs, by simp [negative]⟩

theorem literal_scientific (plus : Bool) {digits : List Char} (h : Digits digits) (e : Int) :
    ∃ front back exponent,
      Literal ⟨false, front, back, some exponent⟩ (scientific plus digits e) := by
  obtain ⟨nonempty, all⟩ := h
  obtain ⟨d, ds, rfl⟩ := List.exists_cons_of_ne_nil nonempty
  obtain ⟨negative, s, es, sign, digits, text⟩ := exponentSign_intChars plus e
  have front : Digits [d] := ⟨by simp, fun c hc => all c (by simp_all)⟩
  have power := Exponent.some (.inl rfl : 'e' = 'e' ∨ 'e' = 'E') sign digits
  have single : [d].head? = some '0' → [d] = ['0'] := by simp
  cases ds with
  | nil =>
    exact ⟨[d], none, _, by rw [scientific, text]; exact .mk .none front single .none power⟩
  | cons d' ds =>
    have back : Digits (d' :: ds) := ⟨by simp, fun c hc => all c (List.mem_cons_of_mem d hc)⟩
    exact ⟨[d], some (d' :: ds), _, by
      rw [scientific, text]
      simpa using Literal.mk .none front single (.some back) power⟩

theorem literal_chars (layout : DecimalLayout) {d : Decimal} (proper : d.Proper) :
    ∃ n, Literal n (d.chars layout) ∧ n.negative = false ∧ n.isWhole = false := by
  unfold chars
  dsimp only
  split
  · have leading : (digitChars d.digits).head? = some '0' → digitChars d.digits = ['0'] ∧
        d.exponent + (digitChars d.digits).length - 1 + 1 ≤ 1 := by
      intro first
      obtain ⟨ds, chars⟩ := List.head?_eq_some_iff.mp first
      have zero := head_digitChars chars
      rw [proper zero, zero]
      exact ⟨rfl, by decide⟩
    obtain ⟨front, back, literal⟩ := literal_positional (digits_digitChars d.digits) leading
    exact ⟨_, literal, rfl, rfl⟩
  · obtain ⟨front, back, exponent, literal⟩ :=
      literal_scientific layout.plus (digits_digitChars d.digits) (d.exponent + _ - 1)
    exact ⟨_, literal, rfl, by simp [Json.Numeral.isWhole]⟩

end Decimal

theorem Json.Grammar.Literal.minus {n : Json.Numeral} {t : List Char} (literal : Literal n t)
    (positive : n.negative = false) : Literal { n with negative := true } ('-' :: t) := by
  obtain ⟨sign, digits, leading, point, power⟩ := literal
  cases positive
  cases sign
  simpa using Literal.mk .minus digits leading point power

theorem DecimalLayout.literal_float? {layout : DecimalLayout} {x : Float} {cs : List Char}
    (h : layout.float? x = some cs) : ∃ n, Literal n cs ∧ n.isWhole = false := by
  unfold float? at h
  cases parts : Binary.ofFloat x with
  | finite negative m e =>
    rw [parts] at h
    have size : ∃ n,
        Literal n (if m = 0 then ['0', '.', '0'] else (Binary.shortest m e).chars layout) ∧
        n.negative = false ∧ n.isWhole = false := by
      split
      · have zero : Digits ['0'] := ⟨by simp, by simp⟩
        exact ⟨_, Literal.mk .none zero (fun _ => rfl) (.some zero) .none, rfl, rfl⟩
      · rename_i nonzero
        exact Decimal.literal_chars layout (Decimal.proper_shortest nonzero e)
    obtain ⟨n, literal, positive, fractional⟩ := size
    cases h
    cases negative with
    | true => exact ⟨_, literal.minus positive, fractional⟩
    | false => exact ⟨n, literal, fractional⟩
  | _ =>
    rw [parts] at h
    cases h

theorem Number.chars_float (x : Float) : (Number.float x).chars = "null".toList ∨
    ∃ n, Literal n (Number.float x).chars ∧ n.isWhole = false := by
  show (Json.decimals.float? x).getD "null".toList = "null".toList ∨
    ∃ n, Literal n ((Json.decimals.float? x).getD "null".toList) ∧ n.isWhole = false
  cases spelled : Json.decimals.float? x with
  | none => exact .inl rfl
  | some cs => exact .inr (DecimalLayout.literal_float? spelled)

def Numeric (c : Char) : Prop := c.isDigit = true ∨ c ∈ ['-', '+', '.', 'e', 'E', 'n', 'u', 'l']

theorem Json.Grammar.Literal.numeric {n : Json.Numeral} {t : List Char} (literal : Literal n t) :
    ∀ c ∈ t, Numeric c := by
  have listed {c : Char} (h : c ∈ ['-', '+', '.', 'e', 'E', 'n', 'u', 'l']) : Numeric c := .inr h
  have digits {ds : List Char} (h : Digits ds) : ∀ c ∈ ds, Numeric c := fun c hc => .inl (h.2 c hc)
  obtain ⟨sign, whole, -, point, power⟩ := literal
  rename_i s f e
  have first : ∀ c ∈ s, Numeric c := by
    cases sign <;> simp [listed]
  have second : ∀ c ∈ f, Numeric c := by
    cases point with
    | none => simp
    | some h => simpa [listed] using digits h
  have third : ∀ c ∈ e, Numeric c := by
    cases power with
    | none => simp
    | some letter sign h =>
      have signed := digits h
      rcases letter with rfl | rfl
      all_goals cases sign <;> simpa [listed] using signed
  intro c hc
  simp only [List.mem_append] at hc
  rcases hc with hc | hc | hc | hc
  · exact first c hc
  · exact digits whole c hc
  · exact second c hc
  · exact third c hc

theorem Number.chars_literal (n : Number) :
    n.chars = "null".toList ∨ ∃ m, Literal m n.chars := by
  cases n with
  | int i => exact .inr ⟨_, Json.literal_intChars i⟩
  | float x => exact (chars_float x).imp id fun ⟨m, literal, _⟩ => ⟨m, literal⟩

theorem Number.numeric_chars (n : Number) : (∀ c ∈ n.chars, Numeric c) ∧ n.chars ≠ [] := by
  rcases n.chars_literal with null | ⟨m, literal⟩
  · rw [null]
    simp [Numeric]
  · obtain ⟨c, cs, text, -⟩ := literal.head
    exact ⟨literal.numeric, by simp [text]⟩

end JsonFilter
