import JsonFilter.Proofs.Json.Grammar.Quotation
import JsonFilter.Proofs.Json.Reader

namespace JsonFilter.Json

open Grammar

variable {α : Type}

theorem isBlank_iff {c : Char} : isBlank c = true ↔ c ∈ [' ', '\t', '\n', '\r'] := by
  simp [isBlank, or_assoc]

theorem Grammar.blanks_nil : Blanks [] := nofun

theorem Grammar.Blanks.append {b b' : List Char} (h : Blanks b) (h' : Blanks b') :
    Blanks (b ++ b') := by
  intro c hc
  rcases List.mem_append.mp hc with hc | hc
  · exact h c hc
  · exact h' c hc

theorem Grammar.Blanks.skip {b : List Char} (blanks : Blanks b) (cs : List Char) :
    skipBlanks (b ++ cs) = skipBlanks cs :=
  skipBlanks_append (fun c hc => isBlank_iff.mpr (blanks c hc)) cs

theorem Grammar.Blanks.skip_cons {b : List Char} (blanks : Blanks b) {c : Char}
    (h : isBlank c = false) (cs : List Char) : skipBlanks (b ++ c :: cs) = c :: cs := by
  rw [blanks.skip, skipBlanks_cons h]

theorem Grammar.Blanks.delimited {b cs : List Char} (blanks : Blanks b) (h : Delimited cs) :
    Delimited (b ++ cs) := by
  cases b with
  | nil => exact h
  | cons c b =>
    have blank := blanks c List.mem_cons_self
    simp only [List.mem_cons, List.not_mem_nil, or_false] at blank
    rcases blank with rfl | rfl | rfl | rfl
    all_goals exact .cons _ rfl (by decide) (by decide) (by decide)

theorem exists_blanks (cs : List Char) : ∃ b, cs = b ++ skipBlanks cs ∧ Blanks b :=
  ⟨cs.takeWhile isBlank, List.takeWhile_append_dropWhile.symm, fun c hc =>
    isBlank_iff.mp (List.all_eq_true.mp List.all_takeWhile c hc)⟩

def Led (P : α → List Char → Prop) (x : α) (t : List Char) : Prop :=
  ∃ b u, t = b ++ u ∧ Blanks b ∧ P x u

section

variable {P : α → List Char → Prop} {x : α} {t b : List Char}

theorem Led.blanks (led : Led P x t) (blanks : Blanks b) : Led P x (b ++ t) := by
  obtain ⟨b', u, rfl, before, spelled⟩ := led
  exact ⟨b ++ b', u, (List.append_assoc ..).symm, blanks.append before, spelled⟩

theorem Led.padded (led : Led P x t) (blanks : Blanks b) : Padded P x (t ++ b) := by
  obtain ⟨b', u, rfl, before, spelled⟩ := led
  rw [List.append_assoc]
  exact .mk before spelled blanks

end

theorem separated_head {P : α → List Char → Prop} {C : Char → Prop}
    (head : ∀ {x t}, P x t → ∃ c cs, t = c :: cs ∧ isBlank c = false ∧ C c) {xs : List α}
    {t : List Char} (h : Separated (Padded P) xs t) (r : List Char) :
    ∃ c cs, skipBlanks (t ++ r) = c :: cs ∧ C c := by
  have padded {x : α} {t : List Char} (h : Padded P x t) (r : List Char) :
      ∃ c cs, skipBlanks (t ++ r) = c :: cs ∧ C c := by
    obtain ⟨before, spelled, behind⟩ := h
    obtain ⟨c, cs, rfl, blank, first⟩ := head spelled
    rw [List.append_assoc, before.skip]
    exact ⟨c, _, skipBlanks_cons blank _, first⟩
  cases h with
  | one only => exact padded only r
  | cons first _ =>
    rw [List.append_assoc]
    exact padded first _

section Sound

variable {item : Reader Json} {P : Json → List Char → Prop}
  (sound : ∀ {cs x rest}, item cs = .ok (x, rest) → ∃ t, cs = t ++ rest ∧ Led P x t)

include sound

theorem itemsAfter_sound {fuel : Nat} {acc xs : List Json} {cs rest : List Char}
    (read : itemsAfter item fuel acc cs = .ok (xs, rest)) :
    ∃ ys t, xs = acc.reverse ++ ys ∧ cs = t ++ ']' :: rest ∧
      ∀ {x u}, Led P x u → Separated (Padded P) (x :: ys) (u ++ t) := by
  -- the blanks behind an element are read with what follows it, so the text that is left is
  -- described by what it completes: any element in front of it
  induction fuel generalizing acc cs with
  | zero => cases read
  | succ fuel ih =>
    obtain ⟨b, split, blanks⟩ := exists_blanks cs
    unfold itemsAfter at read
    split at read
    · rename_i close
      cases read
      rw [close] at split
      exact ⟨[], b, by simp, split, fun led => .one (led.padded blanks)⟩
    · rename_i behind comma
      obtain ⟨b', split', blanks'⟩ := exists_blanks behind
      rw [comma] at split
      split at read
      · cases read
      · cases read
      · split at read
        · rename_i y behind' element
          obtain ⟨t, skipped, led⟩ := sound element
          obtain ⟨ys, u, rfl, rfl, others⟩ := ih read
          rw [skipped] at split'
          refine ⟨y :: ys, b ++ ',' :: (b' ++ t ++ u), by simp, by simp [split, split'], ?_⟩
          intro x v first
          have next := others (led.blanks blanks')
          have both := Separated.cons (first.padded blanks) next
          simpa using both
        · cases read
    · cases read
    · cases read

theorem items_sound {fuel : Nat} {xs : List Json} {cs rest : List Char}
    (read : items item fuel cs = .ok (xs, rest)) :
    ∃ t, cs = t ++ rest ∧ Container P (.arr xs) ('[' :: t) := by
  obtain ⟨b, split, blanks⟩ := exists_blanks cs
  unfold items at read
  split at read
  · cases read
  · rename_i close
    cases read
    rw [close] at split
    exact ⟨b ++ [']'], by simp [split], .noItems blanks⟩
  · split at read
    · rename_i x behind element
      obtain ⟨t, skipped, led⟩ := sound element
      obtain ⟨ys, u, rfl, rfl, others⟩ := itemsAfter_sound sound read
      rw [skipped] at split
      exact ⟨b ++ t ++ u ++ [']'], by simp [split], .items (others (led.blanks blanks))⟩
    · cases read

theorem member_sound {fuel : Nat} {m : String × Json} {cs rest : List Char}
    (read : member item fuel cs = .ok (m, rest)) :
    ∃ t, '"' :: cs = t ++ rest ∧ Member P m t := by
  obtain ⟨⟨k, behind⟩, quoted, read⟩ := bind_eq_ok.mp read
  obtain ⟨⟨x, behind'⟩, element, same⟩ := bind_eq_ok.mp read
  cases same
  obtain ⟨t, key, quotation⟩ := string_sound quoted
  obtain ⟨b, split, blanks⟩ := exists_blanks behind
  unfold memberValue at element
  split at element
  · rename_i colon
    obtain ⟨u, rfl, b', v, rfl, blanks', spelled⟩ := sound element
    rw [colon] at split
    exact ⟨t ++ (b ++ ':' :: (b' ++ v)), by simp [key, split], .mk quotation blanks blanks' spelled⟩
  · cases element
  · cases element

theorem membersAfter_sound {fuel : Nat} {acc ms : Members Json} {cs rest : List Char}
    (read : membersAfter item fuel acc cs = .ok (ms, rest)) :
    ∃ ns t, ms = acc.putAll ns ∧ cs = t ++ '\x7d' :: rest ∧
      ∀ {m u}, Led (Member P) m u → Separated (Padded (Member P)) (m :: ns) (u ++ t) := by
  induction fuel generalizing acc cs with
  | zero => cases read
  | succ fuel ih =>
    obtain ⟨b, split, blanks⟩ := exists_blanks cs
    unfold membersAfter at read
    split at read
    · rename_i close
      cases read
      rw [close] at split
      exact ⟨[], b, rfl, split, fun led => .one (led.padded blanks)⟩
    · rename_i behind comma
      obtain ⟨b', split', blanks'⟩ := exists_blanks behind
      rw [comma] at split
      split at read
      · cases read
      · rename_i quote
        split at read
        · rename_i k x behind' element
          obtain ⟨t, skipped, spelled⟩ := member_sound sound element
          obtain ⟨ns, u, rfl, rfl, others⟩ := ih read
          rw [quote, skipped] at split'
          refine ⟨(k, x) :: ns, b ++ ',' :: (b' ++ t ++ u), rfl, by simp [split, split'], ?_⟩
          intro m v first
          have next := others ⟨b', t, rfl, blanks', spelled⟩
          have both := Separated.cons (first.padded blanks) next
          simpa using both
        · cases read
      · cases read
      · cases read
    · cases read
    · cases read

theorem members_sound {fuel : Nat} {ms : Members Json} {cs rest : List Char}
    (read : members item fuel cs = .ok (ms, rest)) :
    ∃ t, cs = t ++ rest ∧ Container P (.obj ms) ('\x7b' :: t) := by
  obtain ⟨b, split, blanks⟩ := exists_blanks cs
  unfold members at read
  split at read
  · cases read
  · rename_i close
    cases read
    rw [close] at split
    exact ⟨b ++ ['\x7d'], by simp [split], .noMembers blanks⟩
  · rename_i quote
    split at read
    · rename_i k x behind element
      obtain ⟨t, skipped, spelled⟩ := member_sound sound element
      obtain ⟨ns, u, rfl, rfl, others⟩ := membersAfter_sound sound read
      rw [quote, skipped] at split
      have all := others ⟨b, t, rfl, blanks, spelled⟩
      exact ⟨b ++ t ++ u ++ ['\x7d'], by simp [split], .members all⟩
    · cases read
  · cases read

end Sound

section Complete

variable {item : Reader Json} {P : Json → List Char → Prop} {bound fuel : Nat}

/-- What a reader of elements is to do with every spelled element shorter than the bound. -/
structure Completes (item : Reader Json) (P : Json → List Char → Prop) (bound : Nat) : Prop where
  opens {x : Json} {t : List Char} : P x t → ∃ c cs, t = c :: cs ∧ Opens c
  skips {b : List Char} (cs : List Char) : Blanks b → item (b ++ cs) = item cs
  reads {x : Json} {t rest : List Char} :
    P x t → t.length < bound → Delimited rest → item (t ++ rest) = .ok (x, rest)

theorem delimited_comma (cs : List Char) : Delimited (',' :: cs) :=
  .cons cs rfl (by decide) (by decide) (by decide)

theorem delimited_bracket (cs : List Char) : Delimited (']' :: cs) :=
  .cons cs rfl (by decide) (by decide) (by decide)

theorem delimited_brace (cs : List Char) : Delimited ('\x7d' :: cs) :=
  .cons cs rfl (by decide) (by decide) (by decide)

theorem itemsAfter_close {b : List Char} (blanks : Blanks b) (enough : 0 < fuel) (acc : List Json)
    (rest : List Char) : itemsAfter item fuel acc (b ++ ']' :: rest) = .ok (acc.reverse, rest) := by
  obtain ⟨fuel, rfl⟩ : ∃ n, fuel = n + 1 := ⟨fuel - 1, by omega⟩
  have close : skipBlanks (b ++ ']' :: rest) = ']' :: rest :=
    blanks.skip_cons rfl _
  simp only [itemsAfter, close]

theorem itemsAfter_blanks {b : List Char} (blanks : Blanks b) (acc : List Json) (cs : List Char) :
    itemsAfter item fuel acc (b ++ cs) = itemsAfter item fuel acc cs := by
  cases fuel with
  | zero => rfl
  | succ fuel => simp only [itemsAfter, blanks.skip]

theorem Completes.padded (complete : Completes item P bound) {x : Json} {t tail : List Char}
    (spelled : Padded P x t) (short : t.length < bound) (delimited : Delimited tail) :
    ∃ c cs b, skipBlanks (t ++ tail) = c :: cs ∧ c ≠ ']' ∧ Blanks b ∧
      item (c :: cs) = .ok (x, b ++ tail) := by
  obtain ⟨before, spelled, behind⟩ := spelled
  rename_i b u b'
  obtain ⟨c, cs, rfl, blank, bracket⟩ := complete.opens spelled
  simp only [List.length_append] at short
  have read := complete.reads spelled (by omega) (behind.delimited delimited)
  refine ⟨c, cs ++ (b' ++ tail), b', ?_, bracket, behind, read⟩
  rw [List.append_assoc, before.skip]
  simpa using skipBlanks_cons blank (cs ++ (b' ++ tail))

theorem itemsAfter_complete (complete : Completes item P bound) {xs : List Json} {t : List Char}
    (spelled : Separated (Padded P) xs t) (short : t.length < bound) (enough : t.length < fuel)
    (acc : List Json) (rest : List Char) :
    itemsAfter item (fuel + 1) acc (',' :: (t ++ ']' :: rest)) = .ok (acc.reverse ++ xs, rest) := by
  -- every element takes one unit of fuel, and its comma pays for it
  induction spelled generalizing fuel acc with
  | @one x t only =>
    obtain ⟨c, cs, b, next, bracket, blanks, read⟩ :=
      complete.padded only short (delimited_bracket rest)
    rw [itemsAfter_element next bracket, read]
    show itemsAfter item fuel (x :: acc) (b ++ ']' :: rest) = _
    rw [itemsAfter_close blanks (by omega), List.reverse_cons]
  | @cons x xs t u first others ih =>
    simp only [List.length_append, List.length_cons] at short enough
    obtain ⟨fuel, rfl⟩ : ∃ n, fuel = n + 1 := ⟨fuel - 1, by omega⟩
    obtain ⟨c, cs, b, next, bracket, blanks, read⟩ :=
      complete.padded first (by omega) (delimited_comma (u ++ ']' :: rest))
    rw [List.append_assoc, List.cons_append, itemsAfter_element next bracket, read]
    show itemsAfter item (fuel + 1) (x :: acc) (b ++ ',' :: (u ++ ']' :: rest)) = _
    rw [itemsAfter_blanks blanks, ih (by omega) (by omega)]
    simp

theorem items_complete (complete : Completes item P bound) {xs : List Json} {t : List Char}
    (spelled : Separated (Padded P) xs t) (short : t.length < bound) (enough : t.length < fuel)
    (rest : List Char) : items item fuel (t ++ ']' :: rest) = .ok (xs, rest) := by
  cases spelled with
  | @one x t only =>
    obtain ⟨c, cs, b, next, bracket, blanks, read⟩ :=
      complete.padded only short (delimited_bracket rest)
    rw [items_element next bracket, read]
    exact itemsAfter_close blanks (by omega) [x] rest
  | @cons x xs t u first others =>
    simp only [List.length_append, List.length_cons] at short enough
    obtain ⟨fuel, rfl⟩ : ∃ n, fuel = n + 1 := ⟨fuel - 1, by omega⟩
    obtain ⟨c, cs, b, next, bracket, blanks, read⟩ :=
      complete.padded first (by omega) (delimited_comma (u ++ ']' :: rest))
    rw [List.append_assoc, List.cons_append, items_element next bracket, read]
    show itemsAfter item (fuel + 1) [x] (b ++ ',' :: (u ++ ']' :: rest)) = _
    rw [itemsAfter_blanks blanks, itemsAfter_complete complete others (by omega) (by omega)]
    rfl

theorem membersAfter_close {b : List Char} (blanks : Blanks b) (enough : 0 < fuel)
    (acc : Members Json) (rest : List Char) :
    membersAfter item fuel acc (b ++ '\x7d' :: rest) = .ok (acc, rest) := by
  obtain ⟨fuel, rfl⟩ : ∃ n, fuel = n + 1 := ⟨fuel - 1, by omega⟩
  have close : skipBlanks (b ++ '\x7d' :: rest) = '\x7d' :: rest :=
    blanks.skip_cons rfl _
  simp only [membersAfter, close]

theorem membersAfter_blanks {b : List Char} (blanks : Blanks b) (acc : Members Json)
    (cs : List Char) : membersAfter item fuel acc (b ++ cs) = membersAfter item fuel acc cs := by
  cases fuel with
  | zero => rfl
  | succ fuel => simp only [membersAfter, blanks.skip]

theorem member_complete (complete : Completes item P bound) {m : String × Json}
    {t rest : List Char} (spelled : Member P m t) (short : t.length < bound)
    (enough : t.length ≤ fuel) (delimited : Delimited rest) :
    ∃ cs, t ++ rest = '"' :: cs ∧ member item fuel cs = .ok (m, rest) := by
  obtain ⟨key, before, behind, value⟩ := spelled
  rename_i k x t b b' u
  simp only [List.length_append, List.length_cons] at short enough
  obtain ⟨cs, quote, string⟩ :=
    string_complete key (show t.length ≤ fuel by omega) (b ++ ':' :: (b' ++ u) ++ rest)
  have colon : skipBlanks (b ++ ':' :: (b' ++ u) ++ rest) = ':' :: (b' ++ (u ++ rest)) := by
    rw [List.append_assoc, before.skip]
    simpa using skipBlanks_cons rfl (b' ++ (u ++ rest))
  have read : memberValue item (b ++ ':' :: (b' ++ u) ++ rest) = .ok (x, rest) := by
    simp only [memberValue, colon]
    rw [complete.skips _ behind, complete.reads value (by omega) delimited]
  refine ⟨cs, by rw [List.append_assoc, quote], ?_⟩
  simp only [member, string, read, Bind.bind, Except.bind]
  rfl

theorem padded_member (complete : Completes item P bound) {m : String × Json}
    {t tail : List Char} (spelled : Padded (Member P) m t) (short : t.length < bound)
    (enough : t.length ≤ fuel) (delimited : Delimited tail) :
    ∃ cs b, skipBlanks (t ++ tail) = '"' :: cs ∧ Blanks b ∧
      member item fuel cs = .ok (m, b ++ tail) := by
  obtain ⟨before, spelled, behind⟩ := spelled
  rename_i b u b'
  simp only [List.length_append] at short enough
  obtain ⟨cs, quote, read⟩ := member_complete complete spelled (by omega)
    (show u.length ≤ fuel by omega) (behind.delimited delimited)
  refine ⟨cs, b', ?_, behind, read⟩
  rw [List.append_assoc, before.skip, List.append_assoc, quote, skipBlanks_cons rfl]

theorem membersAfter_complete (complete : Completes item P bound) {ms : Members Json}
    {t : List Char} (spelled : Separated (Padded (Member P)) ms t) (short : t.length < bound)
    (enough : t.length < fuel) (acc : Members Json) (rest : List Char) :
    membersAfter item (fuel + 1) acc (',' :: (t ++ '\x7d' :: rest)) = .ok (acc.putAll ms, rest) := by
  induction spelled generalizing fuel acc with
  | @one m t only =>
    obtain ⟨cs, b, next, blanks, read⟩ :=
      padded_member complete only short (Nat.le_of_lt enough) (delimited_brace rest)
    rw [membersAfter_quote next, read]
    exact membersAfter_close blanks (by omega) (acc.put m.1 m.2) rest
  | @cons m ms t u first others ih =>
    simp only [List.length_append, List.length_cons] at short enough
    obtain ⟨fuel, rfl⟩ : ∃ n, fuel = n + 1 := ⟨fuel - 1, by omega⟩
    obtain ⟨cs, b, next, blanks, read⟩ := padded_member complete first (by omega)
      (show t.length ≤ fuel + 1 by omega) (delimited_comma (u ++ '\x7d' :: rest))
    rw [List.append_assoc, List.cons_append, membersAfter_quote next, read]
    show membersAfter item (fuel + 1) (acc.put m.1 m.2) (b ++ ',' :: (u ++ '\x7d' :: rest)) = _
    rw [membersAfter_blanks blanks]
    exact ih (by omega) (by omega) (acc.put m.1 m.2)

theorem members_complete (complete : Completes item P bound) {ms : Members Json}
    {t : List Char} (spelled : Separated (Padded (Member P)) ms t) (short : t.length < bound)
    (enough : t.length < fuel) (rest : List Char) :
    members item fuel (t ++ '\x7d' :: rest) = .ok (Members.ofPairs ms, rest) := by
  cases spelled with
  | @one m t only =>
    obtain ⟨cs, b, next, blanks, read⟩ :=
      padded_member complete only short (Nat.le_of_lt enough) (delimited_brace rest)
    rw [members_quote next, read]
    exact membersAfter_close blanks (by omega) (Members.put [] m.1 m.2) rest
  | @cons m ms t u first others =>
    simp only [List.length_append, List.length_cons] at short enough
    obtain ⟨fuel, rfl⟩ : ∃ n, fuel = n + 1 := ⟨fuel - 1, by omega⟩
    obtain ⟨cs, b, next, blanks, read⟩ := padded_member complete first (by omega)
      (show t.length ≤ fuel + 1 by omega) (delimited_comma (u ++ '\x7d' :: rest))
    rw [List.append_assoc, List.cons_append, members_quote next, read]
    show membersAfter item (fuel + 1) (Members.put [] m.1 m.2)
      (b ++ ',' :: (u ++ '\x7d' :: rest)) = _
    rw [membersAfter_blanks blanks]
    exact membersAfter_complete complete others (by omega) (by omega) (Members.put [] m.1 m.2) rest

theorem Grammar.Container.opens {j : Json} {t : List Char} (spelled : Container P j t) :
    ∃ c cs, t = c :: cs ∧ Opens c := by
  cases spelled with
  | noItems | items => exact ⟨'[', _, rfl, rfl, by decide⟩
  | noMembers | members => exact ⟨'\x7b', _, rfl, rfl, by decide⟩

end Complete

end JsonFilter.Json
