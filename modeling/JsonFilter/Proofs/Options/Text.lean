import JsonFilter.Options.Reader
import JsonFilter.Proofs.Json.Skip
import JsonFilter.Proofs.Json.Source
import JsonFilter.Proofs.Options.Assignment

namespace JsonFilter.Options

open Json Json.Grammar

inductive ObjectText (ms : Members Json) : List Char → Prop
  | mk {t : List Char} (listed : Source.Listed (Member (Value valueDepth)) ms t) :
      ObjectText ms ('\x7b' :: (t ++ ['\x7d']))

inductive ArrayText (xs : List Json) : List Char → Prop
  | mk {t : List Char} (listed : Source.Listed (Value valueDepth) xs t) :
      ArrayText xs ('[' :: (t ++ [']']))

section Language

variable {cs : List Char}

theorem value_obj_iff {os : Members Json} :
    Value depthLimit (.obj os) cs ↔ ∃ ms, ObjectText ms cs ∧ os = Members.ofPairs ms := by
  constructor
  · rintro (scalar | container)
    · cases scalar
    · cases container with
      | noMembers blanks => exact ⟨[], .mk (.none blanks), rfl⟩
      | members spelled => exact ⟨_, .mk (.some spelled), rfl⟩
  · rintro ⟨ms, ⟨blanks | spelled⟩, rfl⟩
    · exact .inr (.noMembers blanks)
    · exact .inr (.members spelled)

theorem value_arr_iff {xs : List Json} : Value depthLimit (.arr xs) cs ↔ ArrayText xs cs := by
  constructor
  · rintro (scalar | container)
    · cases scalar
    · cases container with
      | noItems blanks => exact .mk (.none blanks)
      | items spelled => exact .mk (.some spelled)
  · rintro ⟨blanks | spelled⟩
    · exact .inr (.noItems blanks)
    · exact .inr (.items spelled)

theorem padded_obj_iff {os : Members Json} :
    Padded (Value depthLimit) (.obj os) cs ↔
      ∃ ms, Padded ObjectText ms cs ∧ os = Members.ofPairs ms := by
  constructor
  · rintro ⟨before, spelled, behind⟩
    obtain ⟨ms, written, same⟩ := value_obj_iff.mp spelled
    exact ⟨ms, .mk before written behind, same⟩
  · rintro ⟨ms, ⟨before, written, behind⟩, same⟩
    exact .mk before (value_obj_iff.mpr ⟨ms, written, same⟩) behind

theorem padded_arr_iff {xs : List Json} :
    Padded (Value depthLimit) (.arr xs) cs ↔ Padded ArrayText xs cs := by
  constructor
  · rintro ⟨before, spelled, behind⟩
    exact .mk before (value_arr_iff.mp spelled) behind
  · rintro ⟨before, written, behind⟩
    exact .mk before (value_arr_iff.mpr written) behind

end Language

section Objects

variable {fuel : Nat} {seen seen' : List Field} {o o' : Options} {f : Field}

theorem again_eq (f : Field) (cs : List Char) : ∃ rest, again f cs = .duplicate f rest := by
  unfold again
  split <;> exact ⟨_, rfl⟩

theorem member_again (known : f ∈ seen) (cs : List Char) :
    ∃ rest, member fuel seen o f.name cs = .error (.duplicate f rest) := by
  obtain ⟨rest, refusal⟩ := again_eq f cs
  refine ⟨rest, ?_⟩
  simp only [member, Field.ofName?_eq_some.mpr rfl, List.contains_iff_mem.mpr known, if_true,
    refusal]

section Member

variable {v : Json} {b b' u rest : List Char} (before : Blanks b) (behind : Blanks b')
  (spelled : Value valueDepth v u) (short : u.length < fuel) (delimited : Delimited rest)

include before behind spelled short delimited

theorem member_new (new : f ∉ seen) :
    member fuel seen o f.name (b ++ ':' :: (b' ++ (u ++ rest))) =
      .ok ((f :: seen, o.read f v), rest) := by
  have complete := value_complete fuel valueDepth
  have colon : skipBlanks (b ++ ':' :: (b' ++ (u ++ rest))) = ':' :: (b' ++ (u ++ rest)) :=
    before.skip_cons rfl _
  have read : memberValue (value fuel valueDepth) (b ++ ':' :: (b' ++ (u ++ rest))) =
      .ok (v, rest) := by
    simp only [memberValue, colon]
    rw [complete.skips _ behind, complete.reads spelled short delimited]
  have unseen : seen.contains f = false := by simpa using new
  simp only [member, Field.ofName?_eq_some.mpr rfl, unseen, read]
  rfl

theorem member_unknown {key : String} (unknown : ∀ f : Field, key ≠ f.name) :
    member fuel seen o key (b ++ ':' :: (b' ++ (u ++ rest))) = .ok ((seen, o), rest) := by
  have colon : skipBlanks (b ++ ':' :: (b' ++ (u ++ rest))) = ':' :: (b' ++ (u ++ rest)) :=
    before.skip_cons rfl _
  have passed : Skip.value fuel (b' ++ (u ++ rest)) = .ok rest := by
    rw [Skip.value_blanks behind, (Skip.passed fuel).ends spelled short delimited]
  simp only [member, Field.ofName?_eq_none.mpr unknown, colon, passed]
  rfl

end Member

section Members

variable {k : String} {cs rest more : List Char}

theorem members_refused (key : string fuel cs = .ok (k, rest)) {r : Refusal}
    (refused : member fuel seen o k rest = .error r) : members (fuel + 1) seen o cs = .error r := by
  simp only [members, key, refused, lift, Except.mapError, Bind.bind, Except.bind]

variable {behind : List Char} (key : string fuel cs = .ok (k, behind))
  (taken : member fuel seen o k behind = .ok ((seen', o'), rest))

include key taken

theorem members_close (brace : skipBlanks rest = '\x7d' :: more) :
    members (fuel + 1) seen o cs = .ok (o', more) := by
  simp only [members, key, taken, lift, Except.mapError, Bind.bind, Except.bind, brace]
  rfl

theorem members_next {next : List Char} (comma : skipBlanks rest = ',' :: next)
    (quote : skipBlanks next = '"' :: more) :
    members (fuel + 1) seen o cs = members fuel seen' o' more := by
  simp only [members, key, taken, lift, Except.mapError, Bind.bind, Except.bind, comma, quote]

end Members

/-- What a reader gives is what the assignment comes to: the options with the rest of the text, or
the option that is named again. -/
def Follows (rest : List Char) :
    Except Field Options → Except Refusal (Options × List Char) → Prop
  | .ok o, read => read = .ok (o, rest)
  | .error f, read => ∃ more, read = .error (.duplicate f more)

theorem member_cases {m : String × Json} {t tail : List Char}
    (spelled : Padded (Member (Value valueDepth)) m t) (short : t.length ≤ fuel)
    (delimited : Delimited tail) :
    ∃ cs behind b, skipBlanks (t ++ tail) = '"' :: cs ∧ string fuel cs = .ok (m.1, behind) ∧
      Blanks b ∧ ∀ (seen : List Field) (o : Options),
        (∃ f rest, member fuel seen o m.1 behind = .error (.duplicate f rest) ∧
          ∀ ms, assign seen o (m :: ms) = .error f) ∨
        ∃ seen' o', member fuel seen o m.1 behind = .ok ((seen', o'), b ++ tail) ∧
          ∀ ms, assign seen o (m :: ms) = assign seen' o' ms := by
  obtain ⟨before, ⟨key, space, space', spelled⟩, behind⟩ := spelled
  rename_i b b' k v t c c' u
  simp only [List.length_append, List.length_cons] at short
  obtain ⟨cs, quote, string⟩ := string_complete key (show t.length ≤ fuel by omega)
    (c ++ ':' :: (c' ++ (u ++ (b' ++ tail))))
  refine ⟨cs, _, b', ?_, string, behind, fun seen o => ?_⟩
  · rw [List.append_assoc, before.skip]
    simp only [List.append_assoc, List.cons_append]
    rw [quote, skipBlanks_cons rfl]
  · have after := behind.delimited delimited
    have short : u.length < fuel := by omega
    rcases key_cases k seen with ⟨f, rfl, new⟩ | ⟨f, rfl, known⟩ | unknown
    · exact .inr ⟨_, _, member_new space space' spelled short after new,
        fun ms => assign_known new⟩
    · obtain ⟨rest, refused⟩ := member_again known (c ++ ':' :: (c' ++ (u ++ (b' ++ tail))))
      exact .inl ⟨f, rest, refused, fun ms => assign_again known⟩
    · exact .inr ⟨_, _, member_unknown space space' spelled short after unknown,
        fun ms => assign_unknown unknown⟩

theorem members_follows {ms : Members Json} {t : List Char}
    (spelled : Separated (Padded (Member (Value valueDepth))) ms t) (short : t.length < fuel)
    (seen : List Field) (o : Options) (rest : List Char) :
    ∃ cs, skipBlanks (t ++ '\x7d' :: rest) = '"' :: cs ∧
      Follows rest (assign seen o ms) (members fuel seen o cs) := by
  obtain ⟨fuel, rfl⟩ : ∃ n, fuel = n + 1 := ⟨fuel - 1, by omega⟩
  -- a member that is named again ends the reading; any other leaves less fuel and fewer members
  induction spelled generalizing fuel seen o with
  | @one m t only =>
    obtain ⟨cs, behind, b, quote, key, blanks, step⟩ :=
      member_cases only (show t.length ≤ fuel by omega) (delimited_brace rest)
    refine ⟨cs, quote, ?_⟩
    rcases step seen o with ⟨f, more, refused, again⟩ | ⟨seen', o', taken, next⟩
    · rw [again]
      exact ⟨more, members_refused key refused⟩
    · rw [next]
      exact members_close key taken (blanks.skip_cons rfl rest)
  | @cons m ms t u first others ih =>
    simp only [List.length_append, List.length_cons] at short
    obtain ⟨fuel, rfl⟩ : ∃ n, fuel = n + 1 := ⟨fuel - 1, by omega⟩
    obtain ⟨cs, behind, b, quote, key, blanks, step⟩ :=
      member_cases first (show t.length ≤ fuel + 1 by omega)
        (delimited_comma (u ++ '\x7d' :: rest))
    rw [List.append_assoc, List.cons_append]
    refine ⟨cs, quote, ?_⟩
    rcases step seen o with ⟨f, more, refused, again⟩ | ⟨seen', o', taken, next⟩
    · rw [again]
      exact ⟨more, members_refused key refused⟩
    · obtain ⟨more, quote', follows⟩ := ih seen' o' fuel (by omega)
      have comma :
          skipBlanks (b ++ ',' :: (u ++ '\x7d' :: rest)) = ',' :: (u ++ '\x7d' :: rest) :=
        blanks.skip_cons rfl _
      rw [next, members_next key taken comma quote']
      exact follows

theorem object_follows {ms : Members Json} {t : List Char}
    (listed : Source.Listed (Member (Value valueDepth)) ms t) (short : t.length < fuel)
    (rest : List Char) :
    Follows rest (assign [] default ms) (object fuel (t ++ '\x7d' :: rest)) := by
  cases listed with
  | none blanks =>
    have close : skipBlanks (t ++ '\x7d' :: rest) = '\x7d' :: rest :=
      blanks.skip_cons rfl _
    simp only [object, close]
    exact rfl
  | some spelled =>
    obtain ⟨cs, quote, follows⟩ := members_follows spelled short [] default rest
    simp only [object, quote]
    exact follows

end Objects

section Arrays

variable {fuel : Nat} {o : Options}

def place (fields : List Field) (o : Options) (xs : List Json) : Options :=
  (fields.zip xs).foldl (fun o p => o.read p.1 p.2) o

theorem place_all (xs : List Json) :
    place Field.all default xs = ofMembers ((Field.all.map Field.name).zip xs) := by
  rcases xs with _ | ⟨a, _ | ⟨b, _ | ⟨c, _ | ⟨d, xs⟩⟩⟩⟩ <;> rfl

theorem items_close {b : List Char} (blanks : Blanks b) (fields : List Field) (rest : List Char) :
    items fuel fields o (b ++ ']' :: rest) = .ok (o, rest) := by
  have bracket : skipBlanks (b ++ ']' :: rest) = ']' :: rest :=
    blanks.skip_cons rfl _
  cases fields with
  | nil =>
    simp only [items, close, bracket]
    rfl
  | cons field fields => simp only [items, bracket]

theorem items_blanks {b : List Char} (blanks : Blanks b) (fields : List Field) (cs : List Char) :
    items fuel fields o (b ++ cs) = items fuel fields o cs := by
  cases fields <;> simp only [items, close, blanks.skip]

theorem items_none (cs : List Char) : ∃ r, items fuel [] o (',' :: cs) = .error r := by
  have refused : ∃ r, close (',' :: cs) = .error r := by
    simp only [close, skipBlanks_cons (c := ',') rfl]
    split <;> exact ⟨_, rfl⟩
  obtain ⟨r, refused⟩ := refused
  refine ⟨r, ?_⟩
  simp only [items, refused]
  rfl

theorem items_element {c : Char} {cs rest next : List Char} {v : Json} (field : Field)
    (fields : List Field) (element : skipBlanks cs = c :: next) (bracket : c ≠ ']')
    (read : value fuel valueDepth (c :: next) = .ok (v, rest)) :
    items fuel (field :: fields) o (',' :: cs) = items fuel fields (o.read field v) rest := by
  simp only [items, skipBlanks_cons (c := ',') rfl, element]
  split
  · rename_i nothing
    cases nothing
  · rename_i same
    exact absurd (List.cons.inj same).1 bracket
  · simp only [read, lift, Except.mapError, Bind.bind, Except.bind]

theorem items_place {xs : List Json} {t : List Char}
    (spelled : Separated (Padded (Value valueDepth)) xs t) (short : t.length < fuel)
    (fields : List Field) (o : Options) (rest : List Char) :
    (xs.length ≤ fields.length →
      items fuel fields o (',' :: (t ++ ']' :: rest)) = .ok (place fields o xs, rest)) ∧
    (fields.length < xs.length →
      ∃ r, items fuel fields o (',' :: (t ++ ']' :: rest)) = .error r) := by
  have complete := value_complete fuel valueDepth
  induction spelled generalizing fields o with
  | @one x t only =>
    cases fields with
    | nil => exact ⟨fun few => absurd few (by simp), fun _ => items_none _⟩
    | cons field fields =>
      obtain ⟨c, cs, b, next, bracket, blanks, read⟩ :=
        complete.padded only short (delimited_bracket rest)
      refine ⟨fun _ => ?_, fun many => absurd many (by simp)⟩
      rw [items_element field fields next bracket read, items_close blanks]
      simp [place]
  | @cons x xs t u first others ih =>
    simp only [List.length_append, List.length_cons] at short ⊢
    cases fields with
    | nil => exact ⟨fun few => absurd few (by simp), fun _ => items_none _⟩
    | cons field fields =>
      obtain ⟨c, cs, b, next, bracket, blanks, read⟩ :=
        complete.padded first (by omega) (delimited_comma (u ++ ']' :: rest))
      obtain ⟨few, many⟩ := ih (by omega) fields (o.read field x)
      rw [List.append_assoc, List.cons_append, items_element field fields next bracket read,
        items_blanks blanks]
      simp only [List.length_cons, Nat.add_le_add_iff_right, Nat.add_lt_add_iff_right]
      exact ⟨few, many⟩

theorem array_element {c : Char} {cs rest next : List Char} {v : Json}
    (element : skipBlanks cs = c :: next) (bracket : c ≠ ']')
    (read : value fuel valueDepth (c :: next) = .ok (v, rest)) :
    array fuel cs = items fuel Field.all.tail (default.read .rawOutput v) rest := by
  simp only [array, Field.all, element]
  split
  · rename_i nothing
    cases nothing
  · rename_i same
    exact absurd (List.cons.inj same).1 bracket
  · rename_i listed _ _
    cases listed
    simp only [read, lift, Except.mapError, Bind.bind, Except.bind]
    rfl
  · rename_i listed _ _
    cases listed

theorem array_place {xs : List Json} {t : List Char}
    (listed : Source.Listed (Value valueDepth) xs t) (short : t.length < fuel) (rest : List Char) :
    (xs.length ≤ Field.all.length →
      array fuel (t ++ ']' :: rest) = .ok (place Field.all default xs, rest)) ∧
    (Field.all.length < xs.length → ∃ r, array fuel (t ++ ']' :: rest) = .error r) := by
  have complete := value_complete fuel valueDepth
  cases listed with
  | none blanks =>
    have bracket : skipBlanks (t ++ ']' :: rest) = ']' :: rest :=
      blanks.skip_cons rfl _
    refine ⟨fun _ => ?_, fun many => absurd many (by simp)⟩
    simp only [array, bracket]
    rfl
  | some spelled =>
    cases spelled with
    | @one x t only =>
      obtain ⟨c, cs, b, next, bracket, blanks, read⟩ :=
        complete.padded only short (delimited_bracket rest)
      refine ⟨fun _ => ?_, fun many => absurd many (by simp [Field.all])⟩
      rw [array_element next bracket read, items_close blanks]
      rfl
    | @cons x xs t u first others =>
      simp only [List.length_append, List.length_cons] at short
      obtain ⟨c, cs, b, next, bracket, blanks, read⟩ :=
        complete.padded first (by omega) (delimited_comma (u ++ ']' :: rest))
      obtain ⟨few, many⟩ := items_place others (show u.length < fuel by omega) Field.all.tail
        (default.read .rawOutput x) rest
      rw [List.append_assoc, List.cons_append, array_element next bracket read,
        items_blanks blanks]
      exact ⟨fun h => few (Nat.le_of_succ_le_succ h), fun h => many (Nat.lt_of_succ_lt_succ h)⟩

end Arrays

section Texts

variable {text : String}

theorem structured_brace {b : List Char} (before : Blanks b) (fuel : Nat) (cs : List Char) :
    structured fuel (b ++ '\x7b' :: cs) = object fuel cs := by
  have brace : skipBlanks (b ++ '\x7b' :: cs) = '\x7b' :: cs :=
    before.skip_cons rfl _
  simp only [structured, brace]

theorem structured_bracket {b : List Char} (before : Blanks b) (fuel : Nat) (cs : List Char) :
    structured fuel (b ++ '[' :: cs) = array fuel cs := by
  have bracket : skipBlanks (b ++ '[' :: cs) = '[' :: cs :=
    before.skip_cons rfl _
  simp only [structured, bracket]

theorem structured_follows {ms : Members Json} {cs : List Char}
    (spelled : Padded ObjectText ms cs) :
    ∃ rest, Blanks rest ∧ Follows rest (assign [] default ms) (structured (cs.length + 1) cs) := by
  obtain ⟨before, ⟨listed⟩, behind⟩ := spelled
  rename_i b b' t
  refine ⟨b', behind, ?_⟩
  simp only [List.cons_append, List.append_assoc, List.nil_append, structured_brace before]
  exact object_follows listed (by simp only [List.length_append, List.length_cons]; omega) b'

theorem structured_place {xs : List Json} {cs : List Char} (spelled : Padded ArrayText xs cs) :
    ∃ rest, Blanks rest ∧
      (xs.length ≤ Field.all.length →
        structured (cs.length + 1) cs = .ok (place Field.all default xs, rest)) ∧
      (Field.all.length < xs.length → ∃ r, structured (cs.length + 1) cs = .error r) := by
  obtain ⟨before, ⟨listed⟩, behind⟩ := spelled
  rename_i b b' t
  refine ⟨b', behind, ?_⟩
  simp only [List.cons_append, List.append_assoc, List.nil_append, structured_bracket before]
  exact array_place listed (by simp only [List.length_append, List.length_cons]; omega) b'

theorem ofText_ok {o : Options} {rest : List Char} (behind : Blanks rest)
    (read : structured (text.toList.length + 1) text.toList = .ok (o, rest)) :
    ofText text = .ok o := by
  have nothing : skipBlanks rest = [] := by
    simpa [skipBlanks] using behind.skip []
  simp only [ofText, ofChars, read, Bind.bind, Except.bind, finish, nothing]
  rfl

theorem ofText_error {r : Refusal}
    (refused : structured (text.toList.length + 1) text.toList = .error r) :
    ofText text = .error (r.message text.toList) := by
  simp only [ofText, ofChars, refused]
  rfl

theorem ofText_object {ms : Members Json} (spelled : Padded ObjectText ms text.toList) :
    (∀ o, assign [] default ms = .ok o → ofText text = .ok o) ∧
      ∀ f, assign [] default ms = .error f →
        ∃ p, ofText text = .error (located ("duplicate field `" ++ f.name ++ "`") p) := by
  obtain ⟨rest, behind, follows⟩ := structured_follows spelled
  constructor
  · intro o assigned
    rw [assigned] at follows
    exact ofText_ok behind follows
  · intro f again
    rw [again] at follows
    obtain ⟨more, refused⟩ := follows
    exact ⟨_, ofText_error refused⟩

theorem ofText_array {xs : List Json} (spelled : Padded ArrayText xs text.toList) :
    (xs.length ≤ Field.all.length → ofText text = .ok (place Field.all default xs)) ∧
      (Field.all.length < xs.length → ∃ message, ofText text = .error message) := by
  obtain ⟨rest, behind, few, many⟩ := structured_place spelled
  constructor
  · exact fun h => ofText_ok behind (few h)
  · intro h
    obtain ⟨r, refused⟩ := many h
    exact ⟨_, ofText_error refused⟩

end Texts

end JsonFilter.Options
