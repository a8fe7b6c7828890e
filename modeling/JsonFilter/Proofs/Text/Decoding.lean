import JsonFilter.Proofs.Text.Utf8

namespace JsonFilter.Utf8

theorem continued_zero {low high n taken m : Nat} {bs rest : List Nat} :
    continued low high 0 n taken bs = .ok (m, rest) ↔ m = n ∧ rest = bs := by
  simp only [continued, Except.ok.injEq, Prod.mk.injEq]
  exact ⟨fun h => ⟨h.1.symm, h.2.symm⟩, fun h => ⟨h.1.symm, h.2.symm⟩⟩

theorem continued_succ {low high count n taken m : Nat} {bs rest : List Nat} :
    continued low high (count + 1) n taken bs = .ok (m, rest) ↔
      ∃ b bs', bs = b :: bs' ∧ (low ≤ b ∧ b ≤ high) ∧
        continued 0x80 0xBF count (n * 64 + b % 64) (taken + 1) bs' = .ok (m, rest) := by
  cases bs with
  | nil => simp [continued]
  | cons b bs =>
    by_cases fits : low ≤ b ∧ b ≤ high
    · simp [continued, fits]
    · simp only [continued, fits, if_false, reduceCtorEq, false_iff]
      rintro ⟨c, cs, same, within, -⟩
      cases same
      exact fits within

def Leads (a count : Nat) : Prop :=
  (count = 1 ∧ 0xC2 ≤ a ∧ a ≤ 0xDF) ∨ (count = 2 ∧ 0xE0 ≤ a ∧ a ≤ 0xEF) ∨
    (count = 3 ∧ 0xF0 ≤ a ∧ a ≤ 0xF4)

/-- What a first byte demands of the second one: the shortest form, no surrogate, and nothing
beyond the last code point. -/
def Seconds (a b : Nat) : Prop :=
  (0x80 ≤ b ∧ b ≤ 0xBF) ∧ (a = 0xE0 → 0xA0 ≤ b) ∧ (a = 0xED → b ≤ 0x9F) ∧
    (a = 0xF0 → 0x90 ≤ b) ∧ (a = 0xF4 → b ≤ 0x8F)

theorem following_eq_some {a low high count : Nat} (h : following a = some (low, high, count)) :
    Leads a count ∧ ∀ b, (low ≤ b ∧ b ≤ high) ↔ Seconds a b := by
  unfold Leads Seconds
  unfold following at h
  split_ifs at h <;> cases h
  all_goals exact ⟨by omega, fun b => by omega⟩

theorem Leads.unique {a count other : Nat} (h : Leads a count) (h' : Leads a other) :
    other = count := by
  unfold Leads at h h'
  omega

theorem exists_following {a count : Nat} (h : Leads a count) :
    ∃ low high, following a = some (low, high, count) := by
  cases led : following a with
  | none =>
    unfold following at led
    split_ifs at led
    unfold Leads at h
    omega
  | some range =>
    obtain ⟨low, high, other⟩ := range
    have same := h.unique (following_eq_some led).1
    exact ⟨low, high, by rw [same]⟩

theorem toNat_ofNat {n : Nat} (h : n < 0xD800 ∨ 0xDFFF < n ∧ n < 0x110000) :
    (Char.ofNat n).toNat = n := by
  have valid : n.isValidChar := h
  rw [Char.ofNat, dif_pos valid]
  rfl

section

variable {a b c d : Nat}

theorem encodeChar_two (lead : 0xC2 ≤ a ∧ a ≤ 0xDF) (hb : 0x80 ≤ b ∧ b ≤ 0xBF) :
    encodeChar (Char.ofNat (leadBits a 1 * 64 + b % 64)) = [a, b] := by
  have number := toNat_ofNat (n := a % 0x20 * 64 + b % 64) (by omega)
  simp only [encodeChar, leadBits, number]
  rw [if_neg (by omega), if_pos (by omega)]
  have first : 0xC0 + (a % 0x20 * 64 + b % 64) / 64 = a := by omega
  have second : 0x80 + (a % 0x20 * 64 + b % 64) % 64 = b := by omega
  rw [first, second]

theorem encodeChar_three (lead : 0xE0 ≤ a ∧ a ≤ 0xEF) (hb : Seconds a b)
    (hc : 0x80 ≤ c ∧ c ≤ 0xBF) :
    encodeChar (Char.ofNat ((leadBits a 2 * 64 + b % 64) * 64 + c % 64)) = [a, b, c] := by
  unfold Seconds at hb
  have number := toNat_ofNat (n := (a % 0x10 * 64 + b % 64) * 64 + c % 64) (by omega)
  simp only [encodeChar, leadBits, number]
  generalize size : (a % 0x10 * 64 + b % 64) * 64 + c % 64 = n
  rw [if_neg (by omega), if_neg (by omega), if_pos (by omega)]
  have first : 0xE0 + n / 4096 = a := by omega
  have second : 0x80 + n / 64 % 64 = b := by omega
  have third : 0x80 + n % 64 = c := by omega
  rw [first, second, third]

theorem encodeChar_four (lead : 0xF0 ≤ a ∧ a ≤ 0xF4) (hb : Seconds a b)
    (hc : 0x80 ≤ c ∧ c ≤ 0xBF) (hd : 0x80 ≤ d ∧ d ≤ 0xBF) :
    encodeChar (Char.ofNat (((leadBits a 3 * 64 + b % 64) * 64 + c % 64) * 64 + d % 64)) =
      [a, b, c, d] := by
  unfold Seconds at hb
  have number := toNat_ofNat (n := ((a % 0x08 * 64 + b % 64) * 64 + c % 64) * 64 + d % 64) (by omega)
  simp only [encodeChar, leadBits, number]
  generalize size : ((a % 0x08 * 64 + b % 64) * 64 + c % 64) * 64 + d % 64 = n
  rw [if_neg (by omega), if_neg (by omega), if_neg (by omega)]
  have first : 0xF0 + n / 262144 = a := by omega
  have second : 0x80 + n / 4096 % 64 = b := by omega
  have third : 0x80 + n / 64 % 64 = c := by omega
  have fourth : 0x80 + n % 64 = d := by omega
  rw [first, second, third, fourth]

end

theorem encodeChar_continued {a low high count m : Nat} {bs rest : List Nat}
    (led : following a = some (low, high, count))
    (taken : continued low high count (leadBits a count) 1 bs = .ok (m, rest)) :
    a :: bs = encodeChar (Char.ofNat m) ++ rest := by
  obtain ⟨lead, within⟩ := following_eq_some led
  rcases lead with ⟨rfl, lead⟩ | ⟨rfl, lead⟩ | ⟨rfl, lead⟩
  · obtain ⟨b, _, rfl, hb, taken⟩ := continued_succ.mp taken
    obtain ⟨rfl, rfl⟩ := continued_zero.mp taken
    rw [encodeChar_two lead ((within b).mp hb).1]
    rfl
  · obtain ⟨b, _, rfl, hb, taken⟩ := continued_succ.mp taken
    obtain ⟨c, _, rfl, hc, taken⟩ := continued_succ.mp taken
    obtain ⟨rfl, rfl⟩ := continued_zero.mp taken
    rw [encodeChar_three lead ((within b).mp hb) hc]
    rfl
  · obtain ⟨b, _, rfl, hb, taken⟩ := continued_succ.mp taken
    obtain ⟨c, _, rfl, hc, taken⟩ := continued_succ.mp taken
    obtain ⟨d, _, rfl, hd, taken⟩ := continued_succ.mp taken
    obtain ⟨rfl, rfl⟩ := continued_zero.mp taken
    rw [encodeChar_four lead ((within b).mp hb) hc hd]
    rfl

theorem continued_encodeChar {c : Char} (beyond : 0x80 ≤ c.toNat) (rest : List Nat) :
    ∃ a bs low high count, encodeChar c = a :: bs ∧ 0x80 ≤ a ∧ following a = some (low, high, count) ∧
      continued low high count (leadBits a count) 1 (bs ++ rest) = .ok (c.toNat, rest) := by
  have valid : c.toNat < 0xD800 ∨ 0xDFFF < c.toNat ∧ c.toNat < 0x110000 := c.valid
  simp only [encodeChar]
  generalize c.toNat = n at beyond valid ⊢
  -- `valid` keeps the second byte of a three-byte form out of the surrogates
  split_ifs with one two three
  · omega
  · obtain ⟨low, high, led⟩ := exists_following (a := 0xC0 + n / 64) (.inl ⟨rfl, by omega⟩)
    have within := (following_eq_some led).2
    refine ⟨_, _, low, high, 1, rfl, by omega, led, ?_⟩
    refine continued_succ.mpr ⟨_, _, rfl, (within _).mpr (by unfold Seconds; omega), ?_⟩
    exact continued_zero.mpr ⟨by simp only [leadBits]; omega, rfl⟩
  · obtain ⟨low, high, led⟩ := exists_following (a := 0xE0 + n / 4096) (.inr (.inl ⟨rfl, by omega⟩))
    have within := (following_eq_some led).2
    refine ⟨_, _, low, high, 2, rfl, by omega, led, ?_⟩
    refine continued_succ.mpr ⟨_, _, rfl, (within _).mpr (by unfold Seconds; omega), ?_⟩
    refine continued_succ.mpr ⟨_, _, rfl, by omega, ?_⟩
    exact continued_zero.mpr ⟨by simp only [leadBits]; omega, rfl⟩
  · obtain ⟨low, high, led⟩ := exists_following (a := 0xF0 + n / 262144) (.inr (.inr ⟨rfl, by omega⟩))
    have within := (following_eq_some led).2
    refine ⟨_, _, low, high, 3, rfl, by omega, led, ?_⟩
    refine continued_succ.mpr ⟨_, _, rfl, (within _).mpr (by unfold Seconds; omega), ?_⟩
    refine continued_succ.mpr ⟨_, _, rfl, by omega, ?_⟩
    refine continued_succ.mpr ⟨_, _, rfl, by omega, ?_⟩
    exact continued_zero.mpr ⟨by simp only [leadBits]; omega, rfl⟩

theorem decodeFrom_encodeChar (c : Char) (fuel i : Nat) (acc : List Char) (rest : List Nat) :
    ∃ j, decodeFrom (fuel + 1) i acc (encodeChar c ++ rest) = decodeFrom fuel j (c :: acc) rest := by
  by_cases ascii : c.toNat < 0x80
  · have bytes : encodeChar c = [c.toNat] := by simp only [encodeChar, ascii, if_true]
    refine ⟨i + 1, ?_⟩
    rw [bytes, List.singleton_append, decodeFrom, if_pos ascii, Char.ofNat_toNat]
  · obtain ⟨a, bs, low, high, count, bytes, large, led, taken⟩ :=
      continued_encodeChar (Nat.le_of_not_lt ascii) rest
    refine ⟨i + count + 1, ?_⟩
    rw [bytes, List.cons_append, decodeFrom, if_neg (Nat.not_lt.mpr large)]
    simp only [led, taken, Char.ofNat_toNat]

theorem decodeFrom_cons_eq_ok {fuel i b : Nat} {acc cs : List Char} {bs : List Nat}
    (h : decodeFrom (fuel + 1) i acc (b :: bs) = .ok cs) :
    ∃ c rest j, b :: bs = encodeChar c ++ rest ∧ decodeFrom fuel j (c :: acc) rest = .ok cs := by
  rw [decodeFrom] at h
  split at h
  · rename_i ascii
    have number : (Char.ofNat b).toNat = b := toNat_ofNat (by omega)
    refine ⟨Char.ofNat b, bs, i + 1, ?_, h⟩
    simp only [encodeChar, number, ascii, if_true, List.singleton_append]
  · split at h
    · cases h
    · rename_i led
      split at h
      · rename_i taken
        exact ⟨_, _, _, encodeChar_continued led taken, h⟩
      · cases h

theorem decodeFrom_flatMap (cs : List Char) (fuel i : Nat) (acc : List Char)
    (enough : cs.length < fuel) :
    decodeFrom fuel i acc (cs.flatMap encodeChar) = .ok (acc.reverse ++ cs) := by
  induction cs generalizing fuel i acc with
  | nil =>
    obtain ⟨fuel, rfl⟩ : ∃ n, fuel = n + 1 := ⟨fuel - 1, by omega⟩
    simp [decodeFrom]
  | cons c cs ih =>
    obtain ⟨fuel, rfl⟩ : ∃ n, fuel = n + 1 := ⟨fuel - 1, by omega⟩
    obtain ⟨j, first⟩ := decodeFrom_encodeChar c fuel i acc (cs.flatMap encodeChar)
    rw [List.flatMap_cons, first, ih fuel j (c :: acc) (by simpa using enough)]
    simp

theorem decodeFrom_eq_ok {fuel i : Nat} {acc cs : List Char} {bs : List Nat}
    (enough : bs.length < fuel) (h : decodeFrom fuel i acc bs = .ok cs) :
    ∃ ds, cs = acc.reverse ++ ds ∧ bs = ds.flatMap encodeChar := by
  induction fuel generalizing i acc bs with
  | zero => omega
  | succ fuel ih =>
    cases bs with
    | nil =>
      rw [decodeFrom] at h
      cases h
      exact ⟨[], by simp, rfl⟩
    | cons b bs =>
      obtain ⟨c, rest, j, bytes, later⟩ := decodeFrom_cons_eq_ok h
      -- a character takes at least one byte, so the fuel outlasts the bytes
      have shorter : rest.length < fuel := by
        have lengths := congrArg List.length bytes
        have positive := List.length_pos_iff.mpr (encodeChar_ne_nil c)
        simp only [List.length_cons, List.length_append] at lengths enough
        omega
      obtain ⟨ds, rfl, rfl⟩ := ih shorter later
      exact ⟨c :: ds, by simp, bytes⟩

theorem length_le_encode (cs : List Char) : cs.length ≤ (cs.flatMap encodeChar).length := by
  induction cs with
  | nil => exact Nat.le_refl 0
  | cons c cs ih =>
    have positive := List.length_pos_iff.mpr (encodeChar_ne_nil c)
    simp only [List.flatMap_cons, List.length_cons, List.length_append]
    omega

theorem decode_eq_ok {bytes : List Nat} {text : String} :
    decode bytes = .ok text ↔ bytes = encode text := by
  unfold decode
  constructor
  · intro h
    cases read : decodeFrom (bytes.length + 1) 0 [] bytes with
    | error f =>
      rw [read] at h
      cases h
    | ok cs =>
      rw [read] at h
      cases h
      obtain ⟨ds, rfl, written⟩ := decodeFrom_eq_ok (Nat.lt_succ_self _) read
      rw [encode, String.toList_ofList]
      exact written
  · rintro rfl
    have enough := Nat.lt_succ_of_le (length_le_encode text.toList)
    rw [encode, decodeFrom_flatMap text.toList _ 0 [] enough]
    exact congrArg Except.ok (String.ofList_toList (s := text))

theorem encode_injective {s t : String} (same : encode s = encode t) : s = t :=
  Except.ok.inj ((decode_eq_ok.mpr rfl).symm.trans (decode_eq_ok.mpr same))

end JsonFilter.Utf8
