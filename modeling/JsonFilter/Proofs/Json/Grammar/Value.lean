import JsonFilter.Document
import JsonFilter.Proofs.Json.Grammar.Container
import JsonFilter.Proofs.Json.Grammar.Literal

namespace JsonFilter

namespace Json

open Grammar

theorem word_sound {expected cs rest : List Char} (read : word expected cs = .ok rest) :
    cs = expected ++ rest := by
  induction expected generalizing cs with
  | nil =>
    cases read
    rfl
  | cons e es ih =>
    cases cs with
    | nil => cases read
    | cons c cs =>
      unfold word at read
      split at read
      · rename_i same
        rw [same, ih read, List.cons_append]
      · cases read

theorem scalar_sound {fuel : Nat} {j : Json} {cs rest : List Char}
    (read : scalar fuel cs = .ok (j, rest)) : ∃ t, cs = t ++ rest ∧ Scalar j t := by
  unfold scalar at read
  split at read
  · cases read
  · obtain ⟨behind, letters, same⟩ := bind_eq_ok.mp read
    cases same
    exact ⟨_, by rw [word_sound letters]; rfl, .null⟩
  · obtain ⟨behind, letters, same⟩ := bind_eq_ok.mp read
    cases same
    exact ⟨_, by rw [word_sound letters]; rfl, .true⟩
  · obtain ⟨behind, letters, same⟩ := bind_eq_ok.mp read
    cases same
    exact ⟨_, by rw [word_sound letters]; rfl, .false⟩
  · obtain ⟨⟨s, behind⟩, quoted, same⟩ := bind_eq_ok.mp read
    cases same
    obtain ⟨t, text, quotation⟩ := string_sound quoted
    exact ⟨t, text, .string quotation⟩
  · split at read
    · obtain ⟨⟨v, behind⟩, number, same⟩ := bind_eq_ok.mp read
      cases same
      obtain ⟨n, t, text, literal, denotes⟩ := readNumber_sound number
      exact ⟨t, text, .number literal denotes⟩
    · cases read

theorem value_sound {fuel depth : Nat} {j : Json} {cs rest : List Char}
    (read : value fuel depth cs = .ok (j, rest)) : ∃ t, cs = t ++ rest ∧ Led (Value depth) j t := by
  induction depth generalizing j cs rest with
  | zero =>
    obtain ⟨b, split, blanks⟩ := exists_blanks cs
    unfold value at read
    split at read
    · cases read
    · cases read
    · obtain ⟨t, text, spelled⟩ := scalar_sound read
      rw [text] at split
      exact ⟨b ++ t, by simp [split], b, t, rfl, blanks, spelled⟩
  | succ depth ih =>
    obtain ⟨b, split, blanks⟩ := exists_blanks cs
    unfold value at read
    split at read
    · rename_i bracket
      obtain ⟨⟨xs, behind⟩, elements, same⟩ := bind_eq_ok.mp read
      cases same
      obtain ⟨t, rfl, spelled⟩ := items_sound ih elements
      rw [bracket] at split
      exact ⟨b ++ '[' :: t, by simp [split], b, _, rfl, blanks, .inr spelled⟩
    · rename_i brace
      obtain ⟨⟨ms, behind⟩, pairs, same⟩ := bind_eq_ok.mp read
      cases same
      obtain ⟨t, rfl, spelled⟩ := members_sound ih pairs
      rw [brace] at split
      exact ⟨b ++ '\x7b' :: t, by simp [split], b, _, rfl, blanks, .inr spelled⟩
    · obtain ⟨t, text, spelled⟩ := scalar_sound read
      rw [text] at split
      exact ⟨b ++ t, by simp [split], b, t, rfl, blanks, .inl spelled⟩

theorem Grammar.Scalar.opens {j : Json} {t : List Char} (spelled : Scalar j t) :
    ∃ c cs, t = c :: cs ∧ Opens c ∧ c ≠ '[' ∧ c ≠ '\x7b' := by
  cases spelled with
  | null => exact ⟨'n', _, rfl, ⟨rfl, by decide⟩, by decide, by decide⟩
  | true => exact ⟨'t', _, rfl, ⟨rfl, by decide⟩, by decide, by decide⟩
  | false => exact ⟨'f', _, rfl, ⟨rfl, by decide⟩, by decide, by decide⟩
  | string quoted =>
    obtain ⟨inside⟩ := quoted
    exact ⟨'"', _, rfl, ⟨rfl, by decide⟩, by decide, by decide⟩
  | number literal denotes =>
    obtain ⟨c, cs, text, first⟩ := literal.head
    have other : c ≠ '[' ∧ c ≠ '\x7b' := by
      constructor <;> rintro rfl <;> revert first <;> decide
    exact ⟨c, cs, text, opens_of_number first, other⟩

theorem Grammar.Value.opens {depth : Nat} {j : Json} {t : List Char} (spelled : Value depth j t) :
    ∃ c cs, t = c :: cs ∧ Opens c := by
  have scalar {j : Json} {t : List Char} (spelled : Scalar j t) :
      ∃ c cs, t = c :: cs ∧ Opens c := by
    obtain ⟨c, cs, text, first, -⟩ := spelled.opens
    exact ⟨c, cs, text, first⟩
  cases depth with
  | zero => exact scalar spelled
  | succ depth => exact spelled.elim scalar Container.opens

theorem scalar_complete {j : Json} {t rest : List Char} (spelled : Scalar j t) {fuel : Nat}
    (enough : t.length ≤ fuel) (depth : Nat) (delimited : Delimited rest) :
    value fuel depth (t ++ rest) = .ok (j, rest) := by
  cases spelled with
  | null => exact value_null fuel depth rest
  | true => exact value_true fuel depth rest
  | false => exact value_false fuel depth rest
  | string quoted =>
    obtain ⟨cs, quote, read⟩ := string_complete quoted enough rest
    rw [quote, value_scalar rfl (by decide) (by decide)]
    simp only [scalar, read, Bind.bind, Except.bind]
    rfl
  | number literal denotes =>
    obtain ⟨c, cs, rfl, first⟩ := literal.head
    obtain ⟨_, _, same, ⟨blank, -⟩, bracket, brace⟩ := (Scalar.number literal denotes).opens
    obtain ⟨rfl, rfl⟩ := List.cons.inj same
    have read := readNumber_complete literal denotes delimited
    rw [List.cons_append] at read ⊢
    rw [value_scalar blank bracket brace, scalar_number first, read]
    rfl

theorem container_complete {fuel depth : Nat}
    (complete : Completes (value fuel depth) (Value depth) fuel) {j : Json} {t : List Char}
    (spelled : Container (Value depth) j t) (short : t.length < fuel) (rest : List Char) :
    value fuel (depth + 1) (t ++ rest) = .ok (j, rest) := by
  cases spelled with
  | @noItems b blanks =>
    have close : skipBlanks (b ++ ']' :: rest) = ']' :: rest :=
      blanks.skip_cons rfl _
    simp only [List.cons_append, List.append_assoc, List.nil_append, value_bracket, items, close]
    rfl
  | @items xs t spelled =>
    simp only [List.length_cons, List.length_append] at short
    have shorter : t.length < fuel := by omega
    have read := items_complete complete spelled shorter shorter rest
    simp only [List.cons_append, List.append_assoc, List.nil_append, value_bracket, read]
    rfl
  | @noMembers b blanks =>
    have close : skipBlanks (b ++ '\x7d' :: rest) = '\x7d' :: rest :=
      blanks.skip_cons rfl _
    simp only [List.cons_append, List.append_assoc, List.nil_append, value_brace, members, close]
    rfl
  | @members ms t spelled =>
    simp only [List.length_cons, List.length_append] at short
    have shorter : t.length < fuel := by omega
    have read := members_complete complete spelled shorter shorter rest
    simp only [List.cons_append, List.append_assoc, List.nil_append, value_brace, read]
    rfl

theorem value_complete (fuel depth : Nat) : Completes (value fuel depth) (Value depth) fuel := by
  have skips (depth : Nat) {b : List Char} (cs : List Char) (blanks : Blanks b) :
      value fuel depth (b ++ cs) = value fuel depth cs :=
    value_skipBlanks (blanks.skip cs) fuel depth
  -- one container less may be open inside each container
  induction depth with
  | zero =>
    refine ⟨Value.opens, skips 0, fun spelled short => ?_⟩
    exact scalar_complete spelled (Nat.le_of_lt short) 0
  | succ depth ih =>
    refine ⟨Value.opens, skips (depth + 1), fun spelled short delimited => ?_⟩
    rcases spelled with spelled | spelled
    · exact scalar_complete spelled (Nat.le_of_lt short) (depth + 1) delimited
    · exact container_complete ih spelled short _

theorem ofChars_eq_ok {cs : List Char} {j : Json} :
    ofChars cs = .ok j ↔ Padded (Value depthLimit) j cs := by
  constructor
  · intro read
    obtain ⟨⟨j', rest⟩, front, finished⟩ := bind_eq_ok.mp read
    obtain ⟨t, rfl, led⟩ := value_sound front
    obtain ⟨b, split, blanks⟩ := exists_blanks rest
    dsimp only [finish] at finished
    split at finished
    · rename_i nothing
      cases finished
      rw [nothing, List.append_nil] at split
      rw [split]
      exact led.padded blanks
    · cases finished
  · rintro ⟨before, spelled, behind⟩
    rename_i b t b'
    have complete := value_complete ((b ++ (t ++ b')).length + 1) depthLimit
    have delimited : Delimited b' := by
      simpa using behind.delimited Delimited.nil
    have nothing : skipBlanks b' = [] := by
      simpa [skipBlanks] using behind.skip []
    have short : t.length < (b ++ (t ++ b')).length + 1 := by
      simp only [List.length_append]
      omega
    have read := complete.reads spelled short delimited
    simp only [ofChars, complete.skips _ before, read, Bind.bind, Except.bind, finish, nothing]

end Json

namespace Document

open Json.Grammar

theorem ofText_eq_json {text : String} {j : Json} :
    ofText text = .json j ↔ Padded (Value Json.depthLimit) j text.toList := by
  have language : Json.ofText text = .ok j ↔ Padded (Value Json.depthLimit) j text.toList :=
    Json.ofChars_eq_ok
  rw [← language]
  unfold ofText
  cases Json.ofText text with
  | ok j' => simp
  | error f => simp

/-- A text is accepted exactly where it spells a value with blanks around it, it then gives no
other value than the one it spells, and what is not accepted is a marker with a message. -/
theorem ofText_language (text : String) :
    ((ofText text).isValid = true ↔ ∃ j, Padded (Value 127) j text.toList) ∧
      (∀ j, ofText text = .json j ↔ Padded (Value 127) j text.toList) ∧
      ((∃ message, ofText text = .invalid (some message)) ↔
        ¬ ∃ j, Padded (Value 127) j text.toList) := by
  have language (j : Json) : Json.ofText text = .ok j ↔ Padded (Value 127) j text.toList :=
    Json.ofChars_eq_ok
  unfold ofText
  cases read : Json.ofText text with
  | ok j =>
    have spelled : ∃ j, Padded (Value 127) j text.toList := ⟨j, (language j).mp read⟩
    refine ⟨⟨fun _ => spelled, fun _ => rfl⟩, fun j' => ?_, ⟨?_, fun none => absurd spelled none⟩⟩
    · rw [← language j', read]
      exact ⟨fun same => by cases same; rfl, fun same => by cases same; rfl⟩
    · rintro ⟨message, h⟩
      cases h
  | error f =>
    have none : ¬ ∃ j, Padded (Value 127) j text.toList := by
      rintro ⟨j, spelled⟩
      have accepted := (language j).mpr spelled
      rw [read] at accepted
      cases accepted
    refine ⟨⟨?_, fun spelled => absurd spelled none⟩, fun j => ⟨?_, ?_⟩,
      ⟨fun _ => none, fun _ => ⟨_, rfl⟩⟩⟩
    · intro valid
      cases valid
    · intro same
      cases same
    · exact fun spelled => absurd ⟨j, spelled⟩ none

end Document

end JsonFilter
