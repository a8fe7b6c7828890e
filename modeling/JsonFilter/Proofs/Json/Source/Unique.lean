import JsonFilter.Proofs.Json.Source

namespace JsonFilter.Json

open Grammar

theorem Grammar.Quotation.unique {k k' : String} {t t' r r' : List Char} (quoted : Quotation k t)
    (quoted' : Quotation k' t') (same : t ++ r = t' ++ r') : k = k' ∧ r = r' := by
  obtain ⟨u, text, read⟩ := string_complete quoted (Nat.le_max_left t.length t'.length) r
  obtain ⟨u', text', read'⟩ := string_complete quoted' (Nat.le_max_right t.length t'.length) r'
  rw [same, text'] at text
  cases text
  rw [read] at read'
  cases read'
  exact ⟨rfl, rfl⟩

theorem Grammar.Literal.unique {n n' : Numeral} {t t' r r' : List Char} (literal : Literal n t)
    (literal' : Literal n' t') (delimited : Delimited r) (delimited' : Delimited r')
    (same : t ++ r = t' ++ r') : n = n' ∧ r = r' := by
  have read := Numeral.read_complete literal delimited
  have read' := Numeral.read_complete literal' delimited'
  rw [same, read'] at read
  cases read
  exact ⟨rfl, rfl⟩

namespace Source

variable {α : Type}

/-- Behind texts that go on alike stands the same thing, and it ends at the same place. -/
structure Agree (P Q : α → List Char → Prop) : Prop where
  opens {x : α} {t : List Char} : P x t ∨ Q x t → ∃ c cs, t = c :: cs ∧ Opens c
  same {x y : α} {t u r r' : List Char} : P x t → Q y u → Delimited r → Delimited r' →
    t ++ r = u ++ r' → x = y ∧ r = r'

def Stops (r : List Char) : Prop := ∃ c cs, r = c :: cs ∧ (c = ',' ∨ c = ']' ∨ c = '\x7d')

theorem Stops.delimited {r : List Char} (h : Stops r) : Delimited r := by
  obtain ⟨c, cs, rfl, rfl | rfl | rfl⟩ := h
  · exact delimited_comma cs
  · exact delimited_bracket cs
  · exact delimited_brace cs

theorem Stops.skipBlanks {r : List Char} (h : Stops r) : skipBlanks r = r := by
  obtain ⟨c, cs, rfl, rfl | rfl | rfl⟩ := h
  all_goals exact skipBlanks_cons rfl cs

theorem stops_comma (cs : List Char) : Stops (',' :: cs) := ⟨',', cs, rfl, .inl rfl⟩

section Containers

variable {P Q : α → List Char → Prop}

theorem Agree.padded (agree : Agree P Q) {x y : α} {t u r r' : List Char} (h : Padded P x t)
    (h' : Padded Q y u) (stops : Stops r) (stops' : Stops r') (same : t ++ r = u ++ r') :
    x = y ∧ r = r' := by
  obtain ⟨before, spelled, behind⟩ := h
  obtain ⟨before', spelled', behind'⟩ := h'
  obtain ⟨c, cs, rfl, blank, -⟩ := agree.opens (.inl spelled)
  obtain ⟨d, ds, rfl, blank', -⟩ := agree.opens (.inr spelled')
  have skipped := congrArg skipBlanks same
  simp only [List.append_assoc, before.skip, before'.skip, List.cons_append, skipBlanks_cons blank,
    skipBlanks_cons blank'] at skipped
  obtain ⟨rfl, rest⟩ := agree.same spelled spelled' (behind.delimited stops.delimited)
    (behind'.delimited stops'.delimited) skipped
  have stop := congrArg skipBlanks rest
  rw [behind.skip, behind'.skip, stops.skipBlanks, stops'.skipBlanks] at stop
  exact ⟨rfl, stop⟩

theorem Agree.separated (agree : Agree P Q) {c : Char} (closing : c = ']' ∨ c = '\x7d')
    {xs ys : List α} {t u r r' : List Char} (h : Separated (Padded P) xs t)
    (h' : Separated (Padded Q) ys u) (same : t ++ c :: r = u ++ c :: r') : xs = ys ∧ r = r' := by
  have stops (r : List Char) : Stops (c :: r) := ⟨c, r, rfl, .inr closing⟩
  have other : c ≠ ',' := by rintro rfl; revert closing; decide
  -- where one list ends and the other goes on, a closing character would be a comma
  induction h generalizing ys u with
  | one only =>
    cases h' with
    | one only' =>
      obtain ⟨rfl, rest⟩ := agree.padded only only' (stops r) (stops r') same
      exact ⟨rfl, (List.cons.inj rest).2⟩
    | cons first' others' =>
      rw [List.append_assoc] at same
      obtain ⟨-, rest⟩ := agree.padded only first' (stops r) (stops_comma _) same
      exact absurd (List.cons.inj rest).1 other
  | cons first others ih =>
    rw [List.append_assoc] at same
    cases h' with
    | one only' =>
      obtain ⟨-, rest⟩ := agree.padded first only' (stops_comma _) (stops r') same
      exact absurd (List.cons.inj rest).1.symm other
    | cons first' others' =>
      rw [List.append_assoc] at same
      obtain ⟨rfl, rest⟩ := agree.padded first first' (stops_comma _) (stops_comma _) same
      obtain ⟨rfl, rest⟩ := ih others' (List.cons.inj rest).2
      exact ⟨rfl, rest⟩

theorem Agree.listed (agree : Agree P Q) {c : Char} (closing : c = ']' ∨ c = '\x7d')
    (other : ∀ {x t}, P x t ∨ Q x t → t.head? ≠ some c) {xs ys : List α} {t u r r' : List Char}
    (h : Listed P xs t) (h' : Listed Q ys u) (same : t ++ c :: r = u ++ c :: r') :
    xs = ys ∧ r = r' := by
  have close (r : List Char) : skipBlanks (c :: r) = c :: r := by
    rcases closing with rfl | rfl <;> exact skipBlanks_cons rfl r
  have apart {R : α → List Char → Prop} {xs : List α} {b t r r' : List Char}
      (opens : ∀ {x t}, R x t → ∃ c cs, t = c :: cs ∧ Opens c)
      (other : ∀ {x t}, R x t → t.head? ≠ some c) (blanks : Blanks b)
      (items : Separated (Padded R) xs t) : b ++ c :: r ≠ t ++ r' := by
    intro same
    obtain ⟨d, cs, first, different⟩ := separated_head (C := (· ≠ c)) (fun {x t} spelled => by
      obtain ⟨d, cs, rfl, blank, -⟩ := opens spelled
      exact ⟨d, cs, rfl, blank, fun same => other spelled (by rw [same]; rfl)⟩) items r'
    rw [← same, blanks.skip, close] at first
    exact different (List.cons.inj first).1.symm
  cases h with
  | none blanks =>
    cases h' with
    | none blanks' =>
      have skipped := congrArg skipBlanks same
      rw [blanks.skip, blanks'.skip, close, close] at skipped
      exact ⟨rfl, (List.cons.inj skipped).2⟩
    | some items' =>
      have opens {x : α} {t : List Char} (h : Q x t) := agree.opens (.inr h)
      exact absurd same (apart opens (fun h => other (.inr h)) blanks items')
  | some items =>
    cases h' with
    | none blanks' =>
      exact absurd same.symm
        (apart (fun h => agree.opens (.inl h)) (fun h => other (.inl h)) blanks' items)
    | some items' => exact agree.separated closing items items' same

end Containers

section Forms

/-- What a value is can be seen from the character it starts with. -/
inductive Form
  | null | true | false | number | string | array | object
deriving DecidableEq

def form : Source → Form
  | .null => .null
  | .bool true => .true
  | .bool false => .false
  | .num _ => .number
  | .str _ => .string
  | .arr _ => .array
  | .obj _ => .object

def Form.ofChar : Char → Form
  | 'n' => .null
  | 't' => .true
  | 'f' => .false
  | '"' => .string
  | '[' => .array
  | '\x7b' => .object
  | _ => .number

theorem ofChar_number {c : Char} (h : c = '-' ∨ c.isDigit = true) : Form.ofChar c = .number := by
  unfold Form.ofChar
  split
  case h_7 => rfl
  all_goals revert h; decide

theorem Scalar.head {s : Source} {t : List Char} (spelled : Scalar s t) :
    ∃ c cs, t = c :: cs ∧ Opens c ∧ Form.ofChar c = s.form := by
  cases spelled with
  | null => exact ⟨'n', _, rfl, ⟨rfl, by decide⟩, rfl⟩
  | true => exact ⟨'t', _, rfl, ⟨rfl, by decide⟩, rfl⟩
  | false => exact ⟨'f', _, rfl, ⟨rfl, by decide⟩, rfl⟩
  | string quoted =>
    obtain ⟨inside⟩ := quoted
    exact ⟨'"', _, rfl, ⟨rfl, by decide⟩, rfl⟩
  | number literal =>
    obtain ⟨c, cs, text, first⟩ := literal.head
    exact ⟨c, cs, text, opens_of_number first, ofChar_number first⟩

theorem Container.head {P : Source → List Char → Prop} {s : Source} {t : List Char}
    (spelled : Container P s t) : ∃ c cs, t = c :: cs ∧ Opens c ∧ Form.ofChar c = s.form := by
  cases spelled with
  | arr => exact ⟨'[', _, rfl, ⟨rfl, by decide⟩, rfl⟩
  | obj => exact ⟨'\x7b', _, rfl, ⟨rfl, by decide⟩, rfl⟩

theorem Spelled.head {depth : Nat} {s : Source} {t : List Char} (spelled : Spelled depth s t) :
    ∃ c cs, t = c :: cs ∧ Opens c ∧ Form.ofChar c = s.form := by
  cases depth with
  | zero => exact Scalar.head spelled
  | succ depth => exact spelled.elim Scalar.head Container.head

theorem Spelled.form_eq (depth depth' : Nat) {s s' : Source} {t t' r r' : List Char}
    (spelled : Spelled depth s t) (spelled' : Spelled depth' s' t') (same : t ++ r = t' ++ r') :
    s.form = s'.form := by
  obtain ⟨c, cs, rfl, -, form⟩ := spelled.head
  obtain ⟨d, ds, rfl, -, form'⟩ := spelled'.head
  rw [← form, ← form', (List.cons.inj same).1]

end Forms

theorem Scalar.unique {s s' : Source} {t t' r r' : List Char} (spelled : Scalar s t)
    (spelled' : Scalar s' t') (delimited : Delimited r) (delimited' : Delimited r')
    (same : t ++ r = t' ++ r') : s = s' ∧ r = r' := by
  have forms := Spelled.form_eq 0 0 spelled spelled' same
  cases spelled with
  | null =>
    cases spelled' with
    | null => exact ⟨rfl, List.append_cancel_left same⟩
    | _ => cases forms
  | true =>
    cases spelled' with
    | true => exact ⟨rfl, List.append_cancel_left same⟩
    | _ => cases forms
  | false =>
    cases spelled' with
    | false => exact ⟨rfl, List.append_cancel_left same⟩
    | _ => cases forms
  | string quoted =>
    cases spelled' with
    | string quoted' =>
      obtain ⟨rfl, rest⟩ := quoted.unique quoted' same
      exact ⟨rfl, rest⟩
    | _ => cases forms
  | number literal =>
    cases spelled' with
    | number literal' =>
      obtain ⟨rfl, rest⟩ := literal.unique literal' delimited delimited' same
      exact ⟨rfl, rest⟩
    | _ => cases forms

section Containers

variable {P Q : Source → List Char → Prop}

theorem Member.head {m : String × Source} {t : List Char} (spelled : Member P m t) :
    ∃ cs, t = '"' :: cs := by
  obtain ⟨key, -, -, -⟩ := spelled
  obtain ⟨inside⟩ := key
  exact ⟨_, rfl⟩

theorem Agree.member (agree : Agree P Q) : Agree (Member P) (Member Q) where
  opens := by
    rintro m t (spelled | spelled)
    all_goals
      obtain ⟨cs, rfl⟩ := spelled.head
      exact ⟨'"', cs, rfl, rfl, by decide⟩
  same := by
    intro m n t u r r' spelled spelled' delimited delimited' same
    obtain ⟨key, before, behind, value⟩ := spelled
    obtain ⟨key', before', behind', value'⟩ := spelled'
    obtain ⟨c, cs, rfl, blank, -⟩ := agree.opens (.inl value)
    obtain ⟨d, ds, rfl, blank', -⟩ := agree.opens (.inr value')
    simp only [List.append_assoc, List.cons_append] at same
    obtain ⟨rfl, colon⟩ := key.unique key' same
    have value_at := congrArg skipBlanks colon
    rw [before.skip, before'.skip, skipBlanks_cons rfl, skipBlanks_cons rfl] at value_at
    have rest := congrArg skipBlanks (List.cons.inj value_at).2
    rw [behind.skip, behind'.skip, skipBlanks_cons blank, skipBlanks_cons blank'] at rest
    obtain ⟨rfl, rest⟩ := agree.same value value' delimited delimited' rest
    exact ⟨rfl, rest⟩

theorem Container.unique (agree : Agree P Q) {s s' : Source} {t t' r r' : List Char}
    (spelled : Container P s t) (spelled' : Container Q s' t') (same : t ++ r = t' ++ r') :
    s = s' ∧ r = r' := by
  cases spelled with
  | arr items =>
    cases spelled' with
    | obj => exact absurd (List.cons.inj same).1 (by decide)
    | arr items' =>
      have bracket {x : Source} {t : List Char} (h : P x t ∨ Q x t) : t.head? ≠ some ']' := by
        obtain ⟨c, cs, rfl, -, bracket⟩ := agree.opens h
        simpa using bracket
      simp only [List.cons_append, List.append_assoc, List.nil_append] at same
      obtain ⟨rfl, rest⟩ := agree.listed (.inl rfl) bracket items items' (List.cons.inj same).2
      exact ⟨rfl, rest⟩
  | obj members =>
    cases spelled' with
    | arr => exact absurd (List.cons.inj same).1 (by decide)
    | obj members' =>
      have quote {m : String × Source} {t : List Char} (h : Member P m t ∨ Member Q m t) :
          t.head? ≠ some '\x7d' := by
        rcases h with h | h
        all_goals
          obtain ⟨cs, rfl⟩ := h.head
          simp
      simp only [List.cons_append, List.append_assoc, List.nil_append] at same
      obtain ⟨rfl, rest⟩ :=
        agree.member.listed (.inr rfl) quote members members' (List.cons.inj same).2
      exact ⟨rfl, rest⟩

end Containers

theorem Scalar.form_ne {P : Source → List Char → Prop} {s s' : Source} {t t' : List Char}
    (scalar : Scalar s t) (container : Container P s' t') : s.form ≠ s'.form := by
  cases container
  all_goals cases scalar <;> simp [form]

theorem Spelled.cases_container {depth : Nat} {s : Source} {t : List Char}
    (spelled : Spelled depth s t) :
    Scalar s t ∨ ∃ inner, depth = inner + 1 ∧ Container (Spelled inner) s t := by
  cases depth with
  | zero => exact .inl spelled
  | succ depth => exact spelled.imp id fun container => ⟨depth, rfl, container⟩

theorem agree_spelled (depth depth' : Nat) : Agree (Spelled depth) (Spelled depth') := by
  have opens {depth : Nat} {s : Source} {t : List Char} (spelled : Spelled depth s t) :
      ∃ c cs, t = c :: cs ∧ Opens c := by
    obtain ⟨c, cs, text, first, -⟩ := spelled.head
    exact ⟨c, cs, text, first⟩
  induction depth generalizing depth' with
  | zero =>
    refine ⟨fun h => h.elim opens opens, fun spelled spelled' delimited delimited' same => ?_⟩
    have forms := Spelled.form_eq _ _ spelled spelled' same
    rcases spelled'.cases_container with scalar' | ⟨_, -, container'⟩
    · exact Scalar.unique spelled scalar' delimited delimited' same
    · exact absurd forms (Scalar.form_ne spelled container')
  | succ depth ih =>
    refine ⟨fun h => h.elim opens opens, fun spelled spelled' delimited delimited' same => ?_⟩
    have forms := Spelled.form_eq _ _ spelled spelled' same
    rcases spelled with scalar | container
    · rcases spelled'.cases_container with scalar' | ⟨_, -, container'⟩
      · exact scalar.unique scalar' delimited delimited' same
      · exact absurd forms (scalar.form_ne container')
    · rcases spelled'.cases_container with scalar' | ⟨inner, rfl, container'⟩
      · exact absurd forms.symm (scalar'.form_ne container)
      · exact container.unique (ih inner) container' same

theorem spelled_unique {depth depth' : Nat} {s s' : Source} {t : List Char}
    (spelled : Padded (Spelled depth) s t) (spelled' : Padded (Spelled depth') s' t) : s = s' := by
  generalize same : t = u at spelled'
  obtain ⟨before, spelled, behind⟩ := spelled
  obtain ⟨before', spelled', behind'⟩ := spelled'
  obtain ⟨c, cs, rfl, ⟨blank, -⟩, -⟩ := spelled.head
  obtain ⟨d, ds, rfl, ⟨blank', -⟩, -⟩ := spelled'.head
  have skipped := congrArg skipBlanks same
  simp only [before.skip, before'.skip, List.cons_append, skipBlanks_cons blank,
    skipBlanks_cons blank'] at skipped
  have delimited {b : List Char} (blanks : Blanks b) : Delimited b := by
    simpa using blanks.delimited Delimited.nil
  exact ((agree_spelled depth depth').same spelled spelled' (delimited behind) (delimited behind')
    skipped).1

theorem Written.unique {s s' : Source} {text : String} (written : s.Written text)
    (written' : s'.Written text) : s = s' := by
  obtain ⟨depth, spelled⟩ := written
  obtain ⟨depth', spelled'⟩ := written'
  exact spelled_unique spelled spelled'

end Source

end JsonFilter.Json
