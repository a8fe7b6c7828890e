import JsonFilter.Proofs.Json.Repeats.Literal
import JsonFilter.Proofs.Json.Repeats.Quotation

namespace JsonFilter.Json

open Utf8 (Alike Ascii Like)

variable {bound : Nat}

section Scalars

theorem word_repeats {α : Type} (x : α) {expected : List Char}
    (ascii : Ascii expected) (cs : List Char) :
    Repeats (fun ds => word expected ds >>= fun rest => .ok (x, rest)) bound cs
      (word expected cs >>= fun rest => .ok (x, rest)) := by
  induction expected generalizing bound cs with
  | nil => exact .pure x cs
  | cons e es ih =>
    rcases cs with _ | ⟨c, cs⟩
    · exact .ended rfl
    by_cases same : c = e
    · subst same
      have step (ds : List Char) : word (c :: es) (c :: ds) = word es ds := if_pos rfl
      rw [step]
      refine (ih (fun e member => ascii e (List.mem_cons_of_mem c member)) cs).behind [c]
        (fun ds _ _ => ?_) (Nat.le_add_right bound _)
      rw [List.singleton_append, step]
    · have step {d : Char} (other : d ≠ e) (ds : List Char) :
          word (e :: es) (d :: ds) = .error (.at .expectedIdent (d :: ds)) := if_neg other.symm
      rw [step same]
      refine .refused rfl cs c fun d ds like _ => ?_
      rw [step (like.ne same (ascii e List.mem_cons_self))]
      rfl

theorem scalar_other {c : Char} (letter : c ∉ ['n', 't', 'f', '"'])
    (number : ¬(c = '-' ∨ c.isDigit)) (fuel : Nat) (cs : List Char) :
    scalar fuel (c :: cs) = .error (.at .expectedValue (c :: cs)) := by
  simp only [List.mem_cons, List.not_mem_nil, or_false, not_or] at letter
  unfold scalar
  split <;> simp_all

theorem opensNumber_alike {c d : Char} (like : Like c d) :
    d = '-' ∨ d.isDigit = true ↔ c = '-' ∨ c.isDigit = true := by
  rw [like '-' (by decide), like.test isDigit_ascii]

theorem scalar_repeats (fuel fuel' : Nat) (cs : List Char) :
    Repeats (scalar fuel') fuel' cs (scalar fuel cs) := by
  rcases cs with _ | ⟨c, cs⟩
  · exact .ended rfl
  have room : fuel' ≤ fuel' + [c].length := Nat.le_add_right _ _
  by_cases letter : c ∈ ['n', 't', 'f', '"']
  · simp only [List.mem_cons, List.not_mem_nil, or_false] at letter
    rcases letter with rfl | rfl | rfl | rfl
    · exact (word_repeats Json.null (by decide) cs).behind ['n'] (fun _ _ _ => rfl) room
    · exact (word_repeats (Json.bool true) (by decide) cs).behind ['t'] (fun _ _ _ => rfl) room
    · exact (word_repeats (Json.bool false) (by decide) cs).behind ['f'] (fun _ _ _ => rfl) room
    · exact ((string_repeats fuel fuel' cs).map Json.str).behind ['"'] (fun _ _ _ => rfl) room
  by_cases number : c = '-' ∨ c.isDigit = true
  · rw [scalar_number number]
    refine ((readNumber_repeats fuel' (c :: cs)).map Json.num).congr fun ds alike _ => ?_
    obtain ⟨d, ds, rfl, like⟩ := alike.head
    exact scalar_number ((opensNumber_alike like).mpr number) fuel' ds
  · rw [scalar_other letter number]
    refine .refused rfl cs c fun d ds like _ => ?_
    exact scalar_other (like.not_mem letter (by decide)) (mt (opensNumber_alike like).mp number)
      fuel' ds

end Scalars

section Arrays

variable {item item' : Reader Json} {c : Char} {cs more : List Char} {n : Nat} {acc : List Json}

theorem itemsAfter_congr {cs cs' : List Char} (same : skipBlanks cs = skipBlanks cs') (fuel : Nat)
    (acc : List Json) : itemsAfter item fuel acc cs = itemsAfter item fuel acc cs' := by
  cases fuel with
  | zero => rfl
  | succ fuel => simp only [itemsAfter, same]

theorem itemsAfter_end (found : skipBlanks cs = ']' :: more) :
    itemsAfter item (n + 1) acc cs = .ok (acc.reverse, more) := by
  simp only [itemsAfter, found]

theorem itemsAfter_empty (found : skipBlanks cs = []) :
    itemsAfter item (n + 1) acc (',' :: cs) = .error (.at .eofValue []) := by
  have comma : skipBlanks (',' :: cs) = ',' :: cs := skipBlanks_cons rfl cs
  simp only [itemsAfter, comma, found]

theorem itemsAfter_trailing (found : skipBlanks cs = ']' :: more) :
    itemsAfter item (n + 1) acc (',' :: cs) = .error (.at .trailingComma (']' :: more)) := by
  have comma : skipBlanks (',' :: cs) = ',' :: cs := skipBlanks_cons rfl cs
  simp only [itemsAfter, comma, found]

theorem itemsAfter_other (found : skipBlanks cs = c :: more) (other : c ∉ [']', ',']) :
    itemsAfter item (n + 1) acc cs = .error (.at .expectedListComma (c :: more)) := by
  simp only [List.mem_cons, List.not_mem_nil, or_false, not_or] at other
  simp only [itemsAfter, found]
  split <;> simp_all

theorem items_end (found : skipBlanks cs = ']' :: more) :
    items item n cs = .ok ([], more) := by
  simp only [items, found]

theorem itemsAfter_comma (found : skipBlanks cs = ',' :: more) :
    itemsAfter item n acc cs = itemsAfter item n acc (',' :: more) :=
  itemsAfter_congr (found.trans (skipBlanks_cons rfl more).symm) n acc

variable (repeats : ∀ cs, Repeats item' bound cs (item cs))

include repeats

theorem itemsAfter_comma_repeats {fuel fuel' : Nat} (within : fuel' - 1 ≤ bound)
    (later : ∀ acc cs, Repeats (itemsAfter item' (fuel' - 1) acc) (fuel' - 1) cs
      (itemsAfter item fuel acc cs)) (acc : List Json) (cs : List Char) :
    Repeats (fun ds => itemsAfter item' fuel' acc (',' :: ds)) (fuel' - 1) cs
      (itemsAfter item (fuel + 1) acc (',' :: cs)) := by
  have fueled {k : Nat} (short : k < fuel' - 1) : ∃ n, fuel' = n + 1 :=
    exists_fuel (Nat.lt_of_lt_of_le short (Nat.sub_le fuel' 1))
  rcases found : skipBlanks cs with _ | ⟨c, element⟩
  · rw [itemsAfter_empty found]
    exact .ended rfl
  by_cases close : c = ']'
  · subst close
    rw [itemsAfter_trailing found]
    refine .refusedNext found rfl fun ds d more found like short => ?_
    obtain ⟨n, rfl⟩ := fueled short
    obtain rfl : d = ']' := (like ']' (by decide)).mpr rfl
    exact itemsAfter_trailing found
  · rw [itemsAfter_element found close]
    refine .next found (((repeats _).mono within).bind fun x rest => later (x :: acc) rest)
      fun ds d more found like short => ?_
    obtain ⟨n, rfl⟩ := fueled short
    exact itemsAfter_element found (like.ne close (by decide)) n acc

theorem itemsAfter_repeats (fuel fuel' : Nat) (within : fuel' ≤ bound) (acc : List Json)
    (cs : List Char) :
    Repeats (itemsAfter item' fuel' acc) fuel' cs (itemsAfter item fuel acc cs) := by
  induction fuel generalizing fuel' acc cs with
  | zero => exact .ended rfl
  | succ fuel ih =>
    have room : fuel' ≤ fuel' - 1 + 1 := by omega
    have less : fuel' - 1 ≤ bound := by omega
    rcases found : skipBlanks cs with _ | ⟨c, more⟩
    · simp only [itemsAfter, found]
      exact .ended rfl
    by_cases close : c = ']'
    · subst close
      rw [itemsAfter_end found]
      refine .nextIs found (by decide) (.pure acc.reverse more) room fun ds more' found short => ?_
      obtain ⟨n, rfl⟩ := exists_fuel short
      exact itemsAfter_end found
    by_cases comma : c = ','
    · subst comma
      rw [itemsAfter_comma found]
      exact .nextIs found (by decide)
        (itemsAfter_comma_repeats repeats less (ih (fuel' - 1) less) acc more) room
        fun ds more' found _ => itemsAfter_comma found
    · have other : c ∉ [']', ','] := by simp [close, comma]
      rw [itemsAfter_other found other]
      refine .refusedNext found rfl fun ds d more' found like short => ?_
      obtain ⟨n, rfl⟩ := exists_fuel short
      exact itemsAfter_other found (like.not_mem other (by decide))

theorem items_repeats (fuel : Nat) (cs : List Char) :
    Repeats (items item' bound) bound cs (items item fuel cs) := by
  rcases found : skipBlanks cs with _ | ⟨c, more⟩
  · simp only [items, found]
    exact .ended rfl
  by_cases close : c = ']'
  · subst close
    rw [items_end found]
    exact .nextIs found (by decide) (.pure [] more) (Nat.le_succ bound)
      fun ds more' found _ => items_end found
  · rw [items_element found close]
    exact .next found ((repeats _).bind fun x rest =>
        itemsAfter_repeats repeats fuel bound (Nat.le_refl _) [x] rest)
      fun ds d more' found like _ => items_element found (like.ne close (by decide)) bound

end Arrays

section Objects

variable {item item' : Reader Json} {c : Char} {cs more : List Char} {n : Nat} {acc : Members Json}

theorem memberValue_colon (found : skipBlanks cs = ':' :: more) :
    memberValue item cs = item more := by
  simp only [memberValue, found]

theorem memberValue_other (found : skipBlanks cs = c :: more) (other : c ≠ ':') :
    memberValue item cs = .error (.at .expectedColon (c :: more)) := by
  simp only [memberValue, found]
  split <;> simp_all

theorem membersAfter_end (found : skipBlanks cs = '\x7d' :: more) :
    membersAfter item (n + 1) acc cs = .ok (acc, more) := by
  simp only [membersAfter, found]

theorem membersAfter_comma (found : skipBlanks cs = ',' :: more) :
    membersAfter item n acc cs = membersAfter item n acc (',' :: more) := by
  have comma : skipBlanks (',' :: more) = ',' :: more := skipBlanks_cons rfl more
  cases n with
  | zero => rfl
  | succ n => simp only [membersAfter, found, comma]

theorem membersAfter_other (found : skipBlanks cs = c :: more) (other : c ∉ ['\x7d', ',']) :
    membersAfter item (n + 1) acc cs = .error (.at .expectedObjectComma (c :: more)) := by
  simp only [List.mem_cons, List.not_mem_nil, or_false, not_or] at other
  simp only [membersAfter, found]
  split <;> simp_all

theorem membersAfter_empty (found : skipBlanks cs = []) :
    membersAfter item (n + 1) acc (',' :: cs) = .error (.at .eofValue []) := by
  have comma : skipBlanks (',' :: cs) = ',' :: cs := skipBlanks_cons rfl cs
  simp only [membersAfter, comma, found]

theorem membersAfter_trailing (found : skipBlanks cs = '\x7d' :: more) :
    membersAfter item (n + 1) acc (',' :: cs) = .error (.at .trailingComma ('\x7d' :: more)) := by
  have comma : skipBlanks (',' :: cs) = ',' :: cs := skipBlanks_cons rfl cs
  simp only [membersAfter, comma, found]

theorem membersAfter_unquoted (found : skipBlanks cs = c :: more) (other : c ∉ ['"', '\x7d']) :
    membersAfter item (n + 1) acc (',' :: cs) = .error (.at .keyNotString (c :: more)) := by
  have comma : skipBlanks (',' :: cs) = ',' :: cs := skipBlanks_cons rfl cs
  simp only [List.mem_cons, List.not_mem_nil, or_false, not_or] at other
  simp only [membersAfter, comma, found]
  split <;> simp_all

theorem members_end (found : skipBlanks cs = '\x7d' :: more) :
    members item n cs = .ok ([], more) := by
  simp only [members, found]

theorem members_unquoted (found : skipBlanks cs = c :: more) (other : c ∉ ['"', '\x7d']) :
    members item n cs = .error (.at .keyNotString (c :: more)) := by
  simp only [List.mem_cons, List.not_mem_nil, or_false, not_or] at other
  simp only [members, found]
  split <;> simp_all

variable (repeats : ∀ cs, Repeats item' bound cs (item cs))

include repeats

theorem memberValue_repeats (cs : List Char) :
    Repeats (memberValue item') bound cs (memberValue item cs) := by
  rcases found : skipBlanks cs with _ | ⟨c, more⟩
  · simp only [memberValue, found]
    exact .ended rfl
  by_cases colon : c = ':'
  · subst colon
    rw [memberValue_colon found]
    exact .nextIs found (by decide) (repeats more) (Nat.le_succ bound)
      fun ds more' found _ => memberValue_colon found
  · rw [memberValue_other found colon]
    exact .refusedNext found rfl fun ds d more' found like _ =>
      memberValue_other found (like.ne colon (by decide))

theorem member_repeats (fuel fuel' : Nat) (within : fuel' ≤ bound) (cs : List Char) :
    Repeats (member item' fuel') fuel' cs (member item fuel cs) :=
  (string_repeats fuel fuel' cs).bind fun key rest =>
    ((memberValue_repeats repeats rest).mono within).map (key, ·)

theorem membersAfter_comma_repeats {fuel fuel' : Nat} (within : fuel' - 1 ≤ bound)
    (later : ∀ acc cs, Repeats (membersAfter item' (fuel' - 1) acc) (fuel' - 1) cs
      (membersAfter item fuel acc cs)) (acc : Members Json) (cs : List Char) :
    Repeats (fun ds => membersAfter item' fuel' acc (',' :: ds)) (fuel' - 1) cs
      (membersAfter item (fuel + 1) acc (',' :: cs)) := by
  have fueled {k : Nat} (short : k < fuel' - 1) : ∃ n, fuel' = n + 1 :=
    exists_fuel (Nat.lt_of_lt_of_le short (Nat.sub_le fuel' 1))
  rcases found : skipBlanks cs with _ | ⟨c, key⟩
  · rw [membersAfter_empty found]
    exact .ended rfl
  by_cases quote : c = '"'
  · subst quote
    rw [membersAfter_quote found]
    refine .nextIs found (by decide) ((member_repeats repeats fuel _ within key).bind
      fun m rest => later (acc.put m.1 m.2) rest) (Nat.le_succ _) fun ds more found short => ?_
    obtain ⟨n, rfl⟩ := fueled short
    exact membersAfter_quote found
  by_cases close : c = '\x7d'
  · subst close
    rw [membersAfter_trailing found]
    refine .refusedNext found rfl fun ds d more found like short => ?_
    obtain ⟨n, rfl⟩ := fueled short
    obtain rfl : d = '\x7d' := (like '\x7d' (by decide)).mpr rfl
    exact membersAfter_trailing found
  · have other : c ∉ ['"', '\x7d'] := by simp [quote, close]
    rw [membersAfter_unquoted found other]
    refine .refusedNext found rfl fun ds d more found like short => ?_
    obtain ⟨n, rfl⟩ := fueled short
    exact membersAfter_unquoted found (like.not_mem other (by decide))

theorem membersAfter_repeats (fuel fuel' : Nat) (within : fuel' ≤ bound) (acc : Members Json)
    (cs : List Char) :
    Repeats (membersAfter item' fuel' acc) fuel' cs (membersAfter item fuel acc cs) := by
  induction fuel generalizing fuel' acc cs with
  | zero => exact .ended rfl
  | succ fuel ih =>
    have room : fuel' ≤ fuel' - 1 + 1 := by omega
    have less : fuel' - 1 ≤ bound := by omega
    rcases found : skipBlanks cs with _ | ⟨c, more⟩
    · simp only [membersAfter, found]
      exact .ended rfl
    by_cases close : c = '\x7d'
    · subst close
      rw [membersAfter_end found]
      refine .nextIs found (by decide) (.pure acc more) room fun ds more' found short => ?_
      obtain ⟨n, rfl⟩ := exists_fuel short
      exact membersAfter_end found
    by_cases comma : c = ','
    · subst comma
      rw [membersAfter_comma found]
      exact .nextIs found (by decide)
        (membersAfter_comma_repeats repeats less (ih (fuel' - 1) less) acc more) room
        fun ds more' found _ => membersAfter_comma found
    · have other : c ∉ ['\x7d', ','] := by simp [close, comma]
      rw [membersAfter_other found other]
      refine .refusedNext found rfl fun ds d more' found like short => ?_
      obtain ⟨n, rfl⟩ := exists_fuel short
      exact membersAfter_other found (like.not_mem other (by decide))

theorem members_repeats (fuel : Nat) (cs : List Char) :
    Repeats (members item' bound) bound cs (members item fuel cs) := by
  rcases found : skipBlanks cs with _ | ⟨c, more⟩
  · simp only [members, found]
    exact .ended rfl
  by_cases quote : c = '"'
  · subst quote
    rw [members_quote found]
    have first := member_repeats repeats fuel bound (Nat.le_refl _) more
    have later (m : String × Json) :=
      membersAfter_repeats repeats fuel bound (Nat.le_refl _) (Members.put [] m.1 m.2)
    exact .nextIs found (by decide) (first.bind later) (Nat.le_succ bound)
      fun ds more' found _ => members_quote found
  by_cases close : c = '\x7d'
  · subst close
    rw [members_end found]
    exact .nextIs found (by decide) (.pure [] more) (Nat.le_succ bound)
      fun ds more' found _ => members_end found
  · have other : c ∉ ['"', '\x7d'] := by simp [quote, close]
    rw [members_unquoted found other]
    exact .refusedNext found rfl fun ds d more' found like _ =>
      members_unquoted found (like.not_mem other (by decide))

end Objects

section Values

variable {c : Char} {cs more : List Char}

theorem value_next (found : skipBlanks cs = c :: more) (fuel depth : Nat) :
    value fuel depth cs = value fuel depth (c :: more) :=
  value_skipBlanks (found.trans (skipBlanks_cons (skipBlanks_head found) more).symm) fuel depth

theorem value_next_scalar (found : skipBlanks cs = c :: more) (scalar : c ∉ ['[', '\x7b'])
    (fuel depth : Nat) : value fuel depth cs = Json.scalar fuel (c :: more) := by
  simp only [List.mem_cons, List.not_mem_nil, or_false, not_or] at scalar
  rw [value_next found]
  exact value_scalar (skipBlanks_head found) scalar.1 scalar.2 fuel depth more

theorem value_deep (found : skipBlanks cs = c :: more) (opens : c ∈ ['[', '\x7b']) (fuel : Nat) :
    value fuel 0 cs = .error (.at .depthLimit (c :: more)) := by
  simp only [List.mem_cons, List.not_mem_nil, or_false] at opens
  rcases opens with rfl | rfl <;> simp only [value, found]

theorem value_repeats (fuel fuel' depth : Nat) (cs : List Char) :
    Repeats (value fuel' depth) fuel' cs (value fuel depth cs) := by
  -- the elements of a container may nest one level less
  induction depth generalizing cs with
  | zero =>
    rcases found : skipBlanks cs with _ | ⟨c, more⟩
    · simp only [value, found]
      exact .ended rfl
    by_cases opens : c ∈ ['[', '\x7b']
    · rw [value_deep found opens]
      exact .refusedNext found rfl fun ds d more' found like _ =>
        value_deep found (like.mem opens (by decide)) fuel'
    · rw [value_next_scalar found opens]
      exact .next found (scalar_repeats fuel fuel' _) fun ds d more' found like _ =>
        value_next_scalar found (like.not_mem opens (by decide)) fuel' 0
  | succ depth ih =>
    rcases found : skipBlanks cs with _ | ⟨c, more⟩
    · simp only [value, found]
      exact .ended rfl
    by_cases bracket : c = '['
    · subst bracket
      rw [value_next found, value_bracket]
      exact .nextIs found (by decide) ((items_repeats ih fuel more).map Json.arr)
        (Nat.le_succ fuel') fun ds more' found _ => value_next found fuel' (depth + 1)
    by_cases brace : c = '\x7b'
    · subst brace
      rw [value_next found, value_brace]
      exact .nextIs found (by decide) ((members_repeats ih fuel more).map Json.obj)
        (Nat.le_succ fuel') fun ds more' found _ => value_next found fuel' (depth + 1)
    · have scalar : c ∉ ['[', '\x7b'] := by simp [bracket, brace]
      rw [value_next_scalar found scalar]
      exact .next found (scalar_repeats fuel fuel' _) fun ds d more' found like _ =>
        value_next_scalar found (like.not_mem scalar (by decide)) fuel' (depth + 1)

end Values

section Texts

variable {cs ds : List Char} {f : Fault}

def closing (x : Json) : Reader Json := fun cs => (finish (x, cs)).map (·, [])

theorem closing_repeats (x : Json) (cs : List Char) :
    Repeats (closing x) bound cs (closing x cs) := by
  have trailing {c : Char} {cs more : List Char} (found : skipBlanks cs = c :: more) :
      closing x cs = .error (.at .trailingCharacters (c :: more)) := by
    simp only [closing, finish, found]
    rfl
  rcases found : skipBlanks cs with _ | ⟨c, more⟩
  · have closed : closing x cs = .ok (x, []) := by
      simp only [closing, finish, found]
      rfl
    rw [closed]
    refine .ok (List.append_nil cs).symm fun ds alike _ => ?_
    rw [alike.nil, List.append_nil, closed]
  · rw [trailing found]
    exact .refusedNext found rfl fun ds d more' found _ _ => trailing found

def whole (fuel : Nat) : Reader Json := fun cs =>
  value fuel depthLimit cs >>= fun p => closing p.1 p.2

theorem whole_repeats (fuel fuel' : Nat) (cs : List Char) :
    Repeats (whole fuel') fuel' cs (whole fuel cs) :=
  (value_repeats fuel fuel' depthLimit cs).bind closing_repeats

theorem ofChars_eq_error : ofChars cs = .error f ↔ whole (cs.length + 1) cs = .error f := by
  unfold ofChars whole closing
  rcases value (cs.length + 1) depthLimit cs with g | p
  · exact ⟨fun same => by cases same; rfl, fun same => by cases same; rfl⟩
  · show finish p = _ ↔ (finish p).map (·, []) = _
    cases finish p with
    | error g => exact ⟨fun same => by cases same; rfl, fun same => by cases same; rfl⟩
    | ok x => exact ⟨nofun, nofun⟩

theorem offset_append (cause : Cause) (taken rest : List Char) (seen : Nat) :
    Fault.offset ⟨cause, rest, seen⟩ (taken ++ rest) = Utf8.byteCount taken + seen := by
  rw [Fault.offset, Utf8.byteCount_append, Nat.add_sub_cancel]

theorem ofChars_offset (refused : ofChars cs = .error f) :
    f.offset cs ≤ Utf8.byteCount cs ∧
      (f.cause.isEof = true → f.offset cs = Utf8.byteCount cs) := by
  have repeats := whole_repeats (cs.length + 1) 0 cs
  rw [ofChars_eq_error.mp refused] at repeats
  cases repeats with
  | @ended cause eof =>
    have last : (Fault.at cause []).offset cs = Utf8.byteCount cs := rfl
    exact ⟨Nat.le_of_eq last, fun _ => last⟩
  | overflow => exact ⟨Nat.sub_le _ _, nofun⟩
  | fault split final inside some again =>
    subst split
    rw [offset_append, Utf8.byteCount_append]
    exact ⟨Nat.add_le_add_left inside _, fun eof => by rw [final] at eof; cases eof⟩

/-- Where a fault is decided by what was read, every text that begins alike has it in the same
place. -/
theorem ofChars_alike (refused : ofChars cs = .error f) (final : f.cause.isEof = false)
    (range : f.cause ≠ .numberOutOfRange) (alike : Alike (f.offset cs) cs ds) :
    ∃ g, ofChars ds = .error g ∧ g.cause = f.cause ∧ g.offset ds = f.offset cs := by
  have repeats := whole_repeats (cs.length + 1) (ds.length + 1) cs
  rw [ofChars_eq_error.mp refused] at repeats
  cases repeats with
  | ended eof =>
    rw [Fault.at] at final
    cases eof.symm.trans final
  | overflow => exact absurd rfl range
  | @fault cause taken rest seen split final inside some again =>
    subst split
    rw [offset_append] at alike ⊢
    -- the same bytes are the same characters up to where the fault was found
    obtain ⟨behind, rfl, same⟩ := alike.split
    exact ⟨_, ofChars_eq_error.mpr (again behind same (Nat.lt_succ_self _)), rfl,
      offset_append cause taken behind seen⟩

end Texts

end JsonFilter.Json
