import JsonFilter.Proofs.Json.Grammar

namespace JsonFilter.Json

open Grammar
open Quoted (hexValue?)

theorem hex4_cons {a b c d : Char} {w x y z : Nat} (ha : hexValue? a = some w)
    (hb : hexValue? b = some x) (hc : hexValue? c = some y) (hd : hexValue? d = some z)
    (rest : List Char) :
    hex4 (a :: b :: c :: d :: rest) = .ok (((w * 16 + x) * 16 + y) * 16 + z, rest) := by
  have bytes : ¬ Utf8.byteCount ((a :: b :: c :: d :: rest).take 4) < 4 := by
    have := a.utf8Size_pos
    have := b.utf8Size_pos
    have := c.utf8Size_pos
    have := d.utf8Size_pos
    simp only [List.take_succ_cons, List.take_zero, Utf8.byteCount, List.foldr_cons, List.foldr_nil]
    omega
  simp only [hex4, bytes, if_false, ha, hb, hc, hd]

theorem hex4_eq_ok {cs rest : List Char} {n : Nat} :
    hex4 cs = .ok (n, rest) ↔ ∃ ds, cs = ds ++ rest ∧ CodeUnit n ds := by
  constructor
  · intro read
    unfold hex4 at read
    split at read
    · cases read
    · split at read
      · split at read
        · rename_i first second third fourth
          cases read
          exact ⟨_, rfl, .mk first second third fourth⟩
        · cases read
      · cases read
  · rintro ⟨ds, rfl, unit⟩
    cases unit with
    | mk first second third fourth => exact hex4_cons first second third fourth rest

theorem isLeading_iff {n : Nat} : isLeading n = true ↔ HighSurrogate n := by
  simp [isLeading, HighSurrogate]

theorem isTrailing_iff {n : Nat} : isTrailing n = true ↔ LowSurrogate n := by
  simp [isTrailing, LowSurrogate]

theorem trailingHalf_eq_ok {m : Nat} {cs rest : List Char} {c : Char} :
    trailingHalf m cs = .ok (c, rest) ↔
      ∃ n u, cs = '\\' :: 'u' :: (u ++ rest) ∧ CodeUnit n u ∧ LowSurrogate n ∧
        c = Char.ofNat (0x10000 + (m - 0xD800) * 0x400 + (n - 0xDC00)) := by
  constructor
  · intro read
    unfold trailingHalf at read
    split at read
    · obtain ⟨⟨n, behind⟩, digits, decided⟩ := bind_eq_ok.mp read
      obtain ⟨ds, rfl, unit⟩ := hex4_eq_ok.mp digits
      by_cases low : isTrailing n = true
      · simp only [low, if_true] at decided
        obtain ⟨same, behind⟩ := Prod.mk.inj (Except.ok.inj decided)
        exact ⟨n, ds, by rw [behind], unit, isTrailing_iff.mp low, same.symm⟩
      · simp only [low, Bool.false_eq_true, if_false] at decided
        cases decided
    all_goals cases read
  · rintro ⟨n, u, rfl, unit, low, same⟩
    have digits : hex4 (u ++ rest) = .ok (n, rest) := hex4_eq_ok.mpr ⟨u, rfl, unit⟩
    simp only [trailingHalf, digits, Bind.bind, Except.bind, isTrailing_iff.mpr low, if_true, same]
    rfl

theorem Grammar.HighSurrogate.not_low {n : Nat} (h : HighSurrogate n) : ¬ LowSurrogate n := by
  unfold HighSurrogate at h
  unfold LowSurrogate
  omega

theorem unicodeEscape_eq_ok {cs rest : List Char} {c : Char} :
    unicodeEscape cs = .ok (c, rest) ↔
      ∃ t, cs = t ++ rest ∧ Character c ('\\' :: 'u' :: t) := by
  constructor
  · intro read
    obtain ⟨⟨n, behind⟩, digits, decided⟩ := bind_eq_ok.mp read
    obtain ⟨ds, rfl, unit⟩ := hex4_eq_ok.mp digits
    by_cases low : isTrailing n = true
    · simp only [low, if_true] at decided
      cases decided
    by_cases high : isLeading n = true
    · simp only [low, high, Bool.false_eq_true, if_true, if_false] at decided
      obtain ⟨l, u, rfl, trail, low, same⟩ := trailingHalf_eq_ok.mp decided
      refine ⟨ds ++ '\\' :: 'u' :: u, by simp, ?_⟩
      rw [same]
      exact .pair unit (isLeading_iff.mp high) trail low
    · simp only [low, high, Bool.false_eq_true, if_false] at decided
      cases decided
      exact ⟨ds, rfl, .single unit (mt isLeading_iff.mpr high) (mt isTrailing_iff.mpr low)⟩
  · rintro ⟨t, rfl, spelled⟩
    cases spelled with
    | letter stands => simp [letters] at stands
    | @single n t unit high low =>
      have digits : hex4 (t ++ rest) = .ok (n, rest) := hex4_eq_ok.mpr ⟨t, rfl, unit⟩
      simp only [unicodeEscape, digits, Bind.bind, Except.bind, mt isTrailing_iff.mp low,
        mt isLeading_iff.mp high]
      rfl
    | @pair m n t u lead high trail low =>
      have digits : hex4 (t ++ '\\' :: 'u' :: (u ++ rest)) = .ok (m, '\\' :: 'u' :: (u ++ rest)) :=
        hex4_eq_ok.mpr ⟨t, rfl, lead⟩
      simp only [List.append_assoc, List.cons_append, unicodeEscape, digits, Bind.bind, Except.bind,
        mt isTrailing_iff.mp high.not_low, isLeading_iff.mpr high, if_true]
      exact trailingHalf_eq_ok.mpr ⟨n, u, rfl, trail, low, rfl⟩

theorem escape_eq_ok {cs rest : List Char} {c : Char} :
    escape cs = .ok (c, rest) ↔ ∃ t, cs = t ++ rest ∧ Character c ('\\' :: t) := by
  constructor
  · intro read
    unfold escape at read
    split at read
    case h_10 =>
      obtain ⟨t, rfl, spelled⟩ := unicodeEscape_eq_ok.mp read
      exact ⟨'u' :: t, rfl, spelled⟩
    case h_1 | h_11 => cases read
    all_goals
      cases read
      exact ⟨[_], rfl, .letter (by simp [letters])⟩
  · rintro ⟨t, rfl, spelled⟩
    cases spelled with
    | plain quote backslash visible => exact absurd rfl backslash
    | letter stands =>
      simp only [letters, List.mem_cons, List.not_mem_nil, or_false, Prod.mk.injEq] at stands
      rcases stands with ⟨rfl, rfl⟩ | ⟨rfl, rfl⟩ | ⟨rfl, rfl⟩ | ⟨rfl, rfl⟩ | ⟨rfl, rfl⟩ |
        ⟨rfl, rfl⟩ | ⟨rfl, rfl⟩ | ⟨rfl, rfl⟩
      all_goals rfl
    | single unit high low => exact unicodeEscape_eq_ok.mpr ⟨_, rfl, .single unit high low⟩
    | pair lead high trail low => exact unicodeEscape_eq_ok.mpr ⟨_, rfl, .pair lead high trail low⟩

theorem Grammar.Character.cases_text {c : Char} {t : List Char} (h : Character c t) :
    (t = [c] ∧ c ≠ '"' ∧ c ≠ '\\' ∧ ¬ c.toNat < 0x20) ∨ ∃ u, t = '\\' :: u := by
  cases h with
  | plain quote backslash visible => exact .inl ⟨rfl, quote, backslash, Nat.not_lt.mpr visible⟩
  | letter | single | pair => exact .inr ⟨_, rfl⟩

theorem stringChars_sound {fuel : Nat} {acc s cs rest : List Char}
    (read : stringChars fuel acc cs = .ok (s, rest)) :
    ∃ s' t, s = acc.reverse ++ s' ∧ cs = t ++ '"' :: rest ∧ Characters s' t := by
  -- `acc` holds the characters in front of `cs`, the last one first
  induction fuel generalizing acc cs with
  | zero => cases read
  | succ fuel ih =>
    cases cs with
    | nil => cases read
    | cons c cs =>
      unfold stringChars at read
      by_cases quote : c = '"'
      · rw [if_pos quote] at read
        cases read
        exact ⟨[], [], by simp, by rw [quote]; rfl, .nil⟩
      rw [if_neg quote] at read
      by_cases backslash : c = '\\'
      · rw [if_pos backslash] at read
        split at read
        · rename_i e behind escaped
          obtain ⟨u, rfl, spelled⟩ := escape_eq_ok.mp escaped
          obtain ⟨s', t, rfl, rfl, others⟩ := ih read
          exact ⟨e :: s', '\\' :: u ++ t, by simp, by simp [backslash], .cons spelled others⟩
        · cases read
      rw [if_neg backslash] at read
      by_cases control : c.toNat < 0x20
      · rw [if_pos control] at read
        cases read
      rw [if_neg control] at read
      obtain ⟨s', t, rfl, rfl, others⟩ := ih read
      have visible : 0x20 ≤ c.toNat := Nat.le_of_not_lt control
      exact ⟨c :: s', [c] ++ t, by simp, rfl, .cons (.plain quote backslash visible) others⟩

theorem stringChars_character {c : Char} {t : List Char} (spelled : Character c t) (fuel : Nat)
    (acc rest : List Char) :
    stringChars (fuel + 1) acc (t ++ rest) = stringChars fuel (c :: acc) rest := by
  rcases spelled.cases_text with ⟨rfl, quote, backslash, control⟩ | ⟨u, rfl⟩
  · simp only [List.cons_append, List.nil_append, stringChars, quote, backslash, control, if_false]
  · have escaped : escape (u ++ rest) = .ok (c, rest) := escape_eq_ok.mpr ⟨u, rfl, spelled⟩
    have other : ¬ '\\' = '"' := by decide
    simp only [List.cons_append, stringChars, other, if_false, if_true, escaped]

theorem stringChars_complete {s t : List Char} (spelled : Characters s t) {fuel : Nat}
    (enough : t.length < fuel) (acc rest : List Char) :
    stringChars fuel acc (t ++ '"' :: rest) = .ok (acc.reverse ++ s, rest) := by
  induction spelled generalizing fuel acc with
  | nil =>
    obtain ⟨fuel, rfl⟩ : ∃ n, fuel = n + 1 := ⟨fuel - 1, by omega⟩
    simp [stringChars]
  | @cons c s t u first others ih =>
    obtain ⟨fuel, rfl⟩ : ∃ n, fuel = n + 1 := ⟨fuel - 1, by omega⟩
    -- one unit of fuel is used for a character, which is spelled with one at least
    have taken : 0 < t.length := by
      rcases first.cases_text with ⟨rfl, -⟩ | ⟨v, rfl⟩
      · exact Nat.one_pos
      · exact Nat.succ_pos _
    rw [List.length_append] at enough
    rw [List.append_assoc, stringChars_character first, ih (by omega)]
    simp

theorem string_sound {fuel : Nat} {s : String} {cs rest : List Char}
    (read : string fuel cs = .ok (s, rest)) : ∃ t, '"' :: cs = t ++ rest ∧ Quotation s t := by
  obtain ⟨⟨chars, behind⟩, inside, same⟩ := bind_eq_ok.mp read
  obtain ⟨s', t, rfl, rfl, spelled⟩ := stringChars_sound inside
  cases same
  exact ⟨_, by simp, .mk spelled⟩

theorem string_complete {s : String} {t : List Char} (quoted : Quotation s t) {fuel : Nat}
    (enough : t.length ≤ fuel) (rest : List Char) :
    ∃ u, t ++ rest = '"' :: u ∧ string fuel u = .ok (s, rest) := by
  obtain ⟨inside⟩ := quoted
  rename_i s t
  refine ⟨t ++ '"' :: rest, by simp, ?_⟩
  have shorter : t.length < fuel := by
    simp only [List.length_cons, List.length_append] at enough
    omega
  simp only [string, stringChars_complete inside shorter, Bind.bind, Except.bind]
  rfl

end JsonFilter.Json
