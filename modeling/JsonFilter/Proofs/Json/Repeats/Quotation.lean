import JsonFilter.Proofs.Json.Repeats

namespace JsonFilter.Json

open Grammar
open Quoted (hexValue?)
open Utf8 (Alike Like byteCount)

section Hexadecimal

theorem hexValue_ascii {c : Char} {n : Nat} (digit : hexValue? c = some n) : c.toNat < 0x80 := by
  have below {d : Char} (least : c ≤ d) (ascii : d.toNat < 0x80) : c.toNat < 0x80 :=
    Nat.lt_of_le_of_lt least ascii
  unfold hexValue? at digit
  split_ifs at digit with decimal lower upper
  · exact below decimal.2 (by decide)
  · exact below lower.2 (by decide)
  · exact below upper.2 (by decide)

theorem utf8Size_ascii {c : Char} (ascii : c.toNat < 0x80) : c.utf8Size = 1 := by
  rw [← Utf8.encodeChar_length, Utf8.encodeChar]
  exact congrArg List.length (if_pos ascii)

theorem Grammar.CodeUnit.byteCount {n : Nat} {t : List Char} (unit : CodeUnit n t) :
    byteCount t = 4 := by
  cases unit with
  | mk first second third fourth =>
    simp only [Utf8.byteCount_cons, utf8Size_ascii (hexValue_ascii first),
      utf8Size_ascii (hexValue_ascii second), utf8Size_ascii (hexValue_ascii third),
      utf8Size_ascii (hexValue_ascii fourth)]
    rfl

theorem length_le_byteCount (cs : List Char) : cs.length ≤ byteCount cs := by
  induction cs with
  | nil => exact Nat.le_refl 0
  | cons c cs ih =>
    have := c.utf8Size_pos
    rw [List.length_cons, Utf8.byteCount_cons]
    omega

theorem byteCount_take_lt {cs : List Char} {n : Nat} :
    byteCount (cs.take n) < n ↔ byteCount cs < n := by
  by_cases short : cs.length ≤ n
  · rw [List.take_of_length_le short]
  · have front := length_le_byteCount (cs.take n)
    have whole := length_le_byteCount cs
    rw [List.length_take] at front
    omega

theorem hex4_cases (cs : List Char) :
    hex4 cs = .error (.at .eofString []) ∧ byteCount cs < 4 ∨
      (∃ n t rest, cs = t ++ rest ∧ CodeUnit n t ∧ hex4 cs = .ok (n, rest)) ∨
      hex4 cs = .error ⟨.invalidEscape, cs, 4⟩ ∧ 4 ≤ byteCount cs := by
  by_cases few : byteCount (cs.take 4) < 4
  · exact .inl ⟨if_pos few, byteCount_take_lt.mp few⟩
  · have enough := Nat.le_of_not_lt (mt byteCount_take_lt.mpr few)
    cases read : hex4 cs with
    | ok p =>
      obtain ⟨t, split, unit⟩ := hex4_eq_ok.mp read
      exact .inr (.inl ⟨p.1, t, p.2, split, unit, rfl⟩)
    | error f =>
      refine .inr (.inr ⟨?_, enough⟩)
      unfold hex4 at read
      rw [if_neg few] at read
      split at read
      · split at read
        · cases read
        · cases read
          rfl
      · cases read
        rfl

theorem hex4_alike {cs ds : List Char} (refused : hex4 cs = .error ⟨.invalidEscape, cs, 4⟩)
    (enough : 4 ≤ byteCount cs) (alike : Alike 4 cs ds) :
    hex4 ds = .error ⟨.invalidEscape, ds, 4⟩ := by
  rcases hex4_cases ds with ⟨-, few⟩ | ⟨n, t, rest, rfl, unit, -⟩ | ⟨same, -⟩
  · have length := congrArg List.length alike
    rw [List.length_take, List.length_take, Utf8.bytes_length, Utf8.bytes_length] at length
    omega
  · have front : Alike (byteCount t + 0) (t ++ rest) cs := by
      rw [unit.byteCount]
      exact alike.symm
    obtain ⟨rest', rfl, -⟩ := front.split
    rw [hex4_eq_ok.mpr ⟨t, rfl, unit⟩] at refused
    cases refused
  · exact same

variable {bound : Nat}

theorem repeats_hex4 {reader : Reader Char} (lone : Nat → Bool) (k : Nat → Reader Char)
    (reads : ∀ ds, reader ds = hex4 ds >>= fun p =>
      if lone p.1 then .error (.behind .loneSurrogate p.2) else k p.1 p.2)
    (next : ∀ n rest, Repeats (k n) bound rest (k n rest)) (cs : List Char) :
    Repeats reader bound cs (reader cs) := by
  have read {ds : List Char} {r : Except Fault (Nat × List Char)} (h : hex4 ds = r) :
      reader ds = r >>= fun p =>
        if lone p.1 then .error (.behind .loneSurrogate p.2) else k p.1 p.2 := h ▸ reads ds
  rcases hex4_cases cs with ⟨ended, -⟩ | ⟨n, t, rest, rfl, unit, digits⟩ | ⟨refused, enough⟩
  · rw [read ended]
    exact .ended rfl
  · have some : t ≠ [] := by
      cases unit
      exact List.cons_ne_nil _ _
    have again (ds : List Char) : reader (t ++ ds) =
        if lone n then .error (.behind .loneSurrogate ds) else k n ds :=
      read (hex4_eq_ok.mpr ⟨t, rfl, unit⟩)
    rw [again]
    by_cases alone : lone n = true
    · rw [if_pos alone]
      exact .fault rfl rfl (Nat.zero_le _) (.inr some) fun ds _ _ => (again ds).trans (if_pos alone)
    · rw [if_neg alone]
      exact (next n rest).behind t (fun ds _ _ => (again ds).trans (if_neg alone))
        (Nat.le_add_right _ _)
  · rw [read refused]
    exact .fault (List.nil_append cs).symm rfl enough (.inl (by decide)) fun ds alike _ =>
      read (hex4_alike refused enough alike)

end Hexadecimal

section Escapes

variable {bound : Nat}

theorem trailingHalf_unpaired {c : Char} (other : c ≠ '\\') (lead : Nat) (cs : List Char) :
    trailingHalf lead (c :: cs) = .error (.at .endOfHexEscape (c :: cs)) := by
  unfold trailingHalf
  split <;> simp_all

theorem trailingHalf_unnumbered {c : Char} (other : c ≠ 'u') (lead : Nat) (cs : List Char) :
    trailingHalf lead ('\\' :: c :: cs) = .error (.at .endOfHexEscape (c :: cs)) := by
  unfold trailingHalf
  split <;> simp_all

theorem trailingHalf_repeats (lead : Nat) (cs : List Char) :
    Repeats (trailingHalf lead) bound cs (trailingHalf lead cs) := by
  rcases cs with _ | ⟨c, cs⟩
  · exact .ended rfl
  by_cases backslash : c = '\\'
  · subst backslash
    rcases cs with _ | ⟨c, cs⟩
    · exact .ended rfl
    by_cases number : c = 'u'
    · subst number
      refine Repeats.behind ['\\', 'u'] (q := fun ds => trailingHalf lead ('\\' :: 'u' :: ds))
        (repeats_hex4 (fun n => !isTrailing n) (fun n ds => .ok
          (Char.ofNat (0x10000 + (lead - 0xD800) * 0x400 + (n - 0xDC00)), ds)) (fun ds => ?_)
          (fun _ rest => .pure _ rest) cs) (fun _ _ _ => rfl) (Nat.le_add_right _ _)
      refine congrArg (hex4 ds >>= ·) (funext fun (n, rest) => ?_)
      dsimp only
      cases isTrailing n <;> rfl
    · rw [trailingHalf_unnumbered number]
      refine Repeats.behind ['\\'] (q := fun ds => trailingHalf lead ('\\' :: ds))
        (.refused rfl cs c fun d ds like _ => ?_) (fun _ _ _ => rfl) (Nat.le_add_right _ _)
      exact trailingHalf_unnumbered (like.ne number (by decide)) lead ds
  · rw [trailingHalf_unpaired backslash]
    exact .refused rfl cs c fun d ds like _ =>
      trailingHalf_unpaired (like.ne backslash (by decide)) lead ds

theorem unicodeEscape_repeats (cs : List Char) :
    Repeats unicodeEscape bound cs (unicodeEscape cs) := by
  refine repeats_hex4 isTrailing (fun n ds =>
    if isLeading n then trailingHalf n ds else .ok (Char.ofNat n, ds)) (fun _ => rfl)
    (fun n rest => ?_) cs
  cases isLeading n with
  | true => exact trailingHalf_repeats n rest
  | false => exact .pure _ rest

theorem escape_other {c : Char} (unlisted : ∀ l ∈ letters, c ≠ l.1) (number : c ≠ 'u')
    (cs : List Char) : escape (c :: cs) = .error (.at .invalidEscape (c :: cs)) := by
  simp only [letters, List.forall_mem_cons] at unlisted
  unfold escape
  split <;> simp_all

theorem letters_ascii : ∀ l ∈ letters, l.1.toNat < 0x80 := by decide

theorem escape_repeats (cs : List Char) : Repeats escape bound cs (escape cs) := by
  rcases cs with _ | ⟨c, cs⟩
  · exact .ended rfl
  by_cases number : c = 'u'
  · subst number
    exact (unicodeEscape_repeats cs).behind ['u'] (fun _ _ _ => rfl) (Nat.le_add_right _ _)
  by_cases listed : ∃ l ∈ letters, c = l.1
  · obtain ⟨⟨l, e⟩, stands, rfl⟩ := listed
    have escaped (ds : List Char) : escape (c :: ds) = .ok (e, ds) :=
      escape_eq_ok.mpr ⟨[c], rfl, .letter stands⟩
    rw [escaped]
    exact (Repeats.pure e cs).behind [c] (fun ds _ _ => escaped ds) (Nat.le_add_right _ _)
  · have unlisted : ∀ l ∈ letters, c ≠ l.1 := fun l stands same => listed ⟨l, stands, same⟩
    rw [escape_other unlisted number]
    refine .refused rfl cs c fun d ds like _ => ?_
    exact escape_other (fun l stands => like.ne (unlisted l stands) (letters_ascii l stands))
      (like.ne number (by decide)) ds

end Escapes

section Strings

variable {fuel : Nat} {acc : List Char} {c : Char}

theorem stringChars_quote (cs : List Char) :
    stringChars (fuel + 1) acc ('"' :: cs) = .ok (acc.reverse, cs) := rfl

theorem stringChars_backslash (cs : List Char) :
    stringChars (fuel + 1) acc ('\\' :: cs) =
      escape cs >>= fun p => stringChars fuel (p.1 :: acc) p.2 := by
  have other : '\\' ≠ '"' := by decide
  rw [stringChars, if_neg other, if_pos rfl]
  cases escape cs <;> rfl

theorem stringChars_control (quote : c ≠ '"') (backslash : c ≠ '\\') (control : c.toNat < 0x20)
    (cs : List Char) :
    stringChars (fuel + 1) acc (c :: cs) = .error (.at .controlCharacter (c :: cs)) := by
  rw [stringChars, if_neg quote, if_neg backslash, if_pos control]

theorem stringChars_plain (quote : c ≠ '"') (backslash : c ≠ '\\') (visible : ¬ c.toNat < 0x20)
    (cs : List Char) : stringChars (fuel + 1) acc (c :: cs) = stringChars fuel (c :: acc) cs := by
  rw [stringChars, if_neg quote, if_neg backslash, if_neg visible]

theorem stringChars_repeats (fuel fuel' : Nat) (acc cs : List Char) :
    Repeats (stringChars fuel' acc) fuel' cs (stringChars fuel acc cs) := by
  -- on the fuel of the first reading; that of the second one bounds the length of its text
  induction fuel generalizing fuel' acc cs with
  | zero => exact .ended rfl
  | succ fuel ih =>
    rcases cs with _ | ⟨c, cs⟩
    · exact .ended rfl
    have room : fuel' ≤ fuel' - 1 + [c].length := by
      rw [List.length_singleton]
      omega
    by_cases quote : c = '"'
    · subst quote
      rw [stringChars_quote]
      refine (Repeats.pure acc.reverse cs).behind ['"'] (fun ds _ short => ?_) room
      obtain ⟨n, rfl⟩ := exists_fuel short
      exact stringChars_quote ds
    by_cases backslash : c = '\\'
    · subst backslash
      rw [stringChars_backslash]
      refine Repeats.behind ['\\'] ((escape_repeats cs).bind fun e rest =>
        ih (fuel' - 1) (e :: acc) rest) (fun ds _ short => ?_) room
      obtain ⟨n, rfl⟩ := exists_fuel short
      exact stringChars_backslash ds
    by_cases control : c.toNat < 0x20
    · rw [stringChars_control quote backslash control]
      refine .refused rfl cs c fun d ds like short => ?_
      obtain ⟨n, rfl⟩ := exists_fuel short
      obtain rfl : d = c := (like c (Nat.lt_trans control (by decide))).mpr rfl
      exact stringChars_control quote backslash control ds
    · rw [stringChars_plain quote backslash control]
      refine (ih (fuel' - 1) (c :: acc) cs).behind [c] (fun ds _ short => ?_) room
      obtain ⟨n, rfl⟩ := exists_fuel short
      exact stringChars_plain quote backslash control ds

theorem string_repeats (fuel fuel' : Nat) (cs : List Char) :
    Repeats (string fuel') fuel' cs (string fuel cs) :=
  (stringChars_repeats fuel fuel' [] cs).map String.ofList

end Strings

end JsonFilter.Json
