import JsonFilter.Proofs.Json.Block
import JsonFilter.Proofs.Json.Float

namespace JsonFilter

/-- Outside of string literals, in one, or in one behind a backslash. -/
inductive Place
  | outside | inside | escaped
deriving DecidableEq

abbrev Opening (c : Char) : Prop := c = '[' ∨ c = '\x7b'

abbrev Closing (c : Char) : Prop := c = ']' ∨ c = '\x7d'

abbrev Spacing (c : Char) : Prop := c = ' ' ∨ c = '\n'

namespace Place

def next : Place → Char → Place
  | .outside, c => if c = '"' then .inside else .outside
  | .inside, c => if c = '"' then .outside else if c = '\\' then .escaped else .inside
  | .escaped, _ => .inside

/-- A text without the spaces and line feeds outside of its string literals. -/
def unspaced : Place → List Char → List Char
  | _, [] => []
  | p, c :: cs =>
    if p = .outside ∧ Spacing c then (p.next c).unspaced cs else c :: (p.next c).unspaced cs

example : Place.outside.unspaced "\x7b\n  \"a \\\" \": []\n\x7d".toList =
    "\x7b\"a \\\" \":[]\x7d".toList := by rfl

end Place

structure Scan where
  place : Place
  nesting : Int

namespace Scan

def start : Scan := ⟨.outside, 0⟩

def next (s : Scan) (c : Char) : Scan :=
  ⟨s.place.next c,
    if s.place ≠ .outside then s.nesting
    else if Opening c then s.nesting + 1
    else if Closing c then s.nesting - 1
    else s.nesting⟩

def after (s : Scan) (t : List Char) : Scan := t.foldl next s

end Scan

/-- Two spaces for each container around the next character, which a closing bracket is not in. -/
def Indented (nesting : Int) (t : List Char) : Prop :=
  ∃ (d : Nat) (c : Char) (rest : List Char), t = List.replicate (2 * d) ' ' ++ c :: rest ∧
    c ≠ ' ' ∧ nesting = d + if Closing c then 1 else 0

/-- Nothing stands in front of a closing bracket that comes next. -/
def Filled (t : List Char) : Prop :=
  ∃ (space : List Char) (c : Char) (rest : List Char), t = space ++ c :: rest ∧
    (∀ b ∈ space, Spacing b) ∧ ¬ Spacing c ∧ (Closing c → space = [])

structure Fits (s : Scan) (c : Char) (behind : List Char) : Prop where
  line : c = '\n' → s.place = .outside ∧ Indented s.nesting behind
  bracket : s.place = .outside → Opening c → Filled behind

/-- A text in the indented layout between two states of a scan, and the same text without it. -/
inductive Laid (e : Scan) : Scan → List Char → List Char → Prop
  | nil : Laid e e [] []
  | kept {s : Scan} {c : Char} {t u : List Char} (visible : ¬ (s.place = .outside ∧ Spacing c))
      (fits : Fits s c t) (others : Laid e (s.next c) t u) : Laid e s (c :: t) (c :: u)
  | dropped {s : Scan} {c : Char} {t u : List Char} (layout : s.place = .outside ∧ Spacing c)
      (fits : Fits s c t) (others : Laid e (s.next c) t u) : Laid e s (c :: t) u

section Append

variable {c : Char} {s e e' : Scan} {t u t' u' : List Char}

theorem Indented.append {n : Int} (h : Indented n t) (more : List Char) :
    Indented n (t ++ more) := by
  obtain ⟨d, c, rest, rfl, visible, count⟩ := h
  exact ⟨d, c, rest ++ more, by simp, visible, count⟩

theorem Filled.append (h : Filled t) (more : List Char) : Filled (t ++ more) := by
  obtain ⟨space, c, rest, rfl, layout, visible, closing⟩ := h
  exact ⟨space, c, rest ++ more, by simp, layout, visible, closing⟩

theorem Fits.append (h : Fits s c t) (more : List Char) : Fits s c (t ++ more) :=
  ⟨fun line => ⟨(h.line line).1, (h.line line).2.append more⟩,
    fun place opening => (h.bracket place opening).append more⟩

theorem Laid.append (h : Laid e s t u) (h' : Laid e' e t' u') : Laid e' s (t ++ t') (u ++ u') := by
  induction h with
  | nil => exact h'
  | kept visible fits _ ih => exact .kept visible (fits.append t') ih
  | dropped layout fits _ ih => exact .dropped layout (fits.append t') ih

end Append

section Whole

variable {s e : Scan} {t u : List Char}

theorem Laid.unspaced_eq (h : Laid e s t u) : s.place.unspaced t = u := by
  induction h with
  | nil => rfl
  | kept visible _ _ ih =>
    rw [Place.unspaced, if_neg visible]
    exact congrArg _ ih
  | dropped layout _ _ ih =>
    rw [Place.unspaced, if_pos layout]
    exact ih

theorem Fits.cons {d : Char} {front : List Char} {c : Char} {behind : List Char}
    (first : Fits s d t)
    (others : ∀ front, t = front ++ c :: behind → Fits ((s.next d).after front) c behind)
    (split : d :: t = front ++ c :: behind) : Fits (s.after front) c behind := by
  cases front with
  | nil =>
    cases split
    exact first
  | cons d' front =>
    obtain ⟨rfl, inner⟩ := List.cons.inj split
    exact others front inner

theorem Laid.fits (h : Laid e s t u) {front : List Char} {c : Char} {behind : List Char}
    (split : t = front ++ c :: behind) : Fits (s.after front) c behind := by
  induction h generalizing front with
  | nil => simp at split
  | kept _ fits _ ih => exact fits.cons (fun _ => ih) split
  | dropped _ fits _ ih => exact fits.cons (fun _ => ih) split

end Whole

section Pieces

variable {n : Int} {e : Scan} {t u : List Char}

def Ordinary (c : Char) : Prop := c ≠ '"' ∧ ¬ Opening c ∧ ¬ Closing c ∧ ¬ Spacing c

instance : DecidablePred Ordinary := fun _ => inferInstanceAs (Decidable (_ ∧ _))

theorem ordinary_of_all (h : t.all fun c => Ordinary c) : ∀ c ∈ t, Ordinary c :=
  fun c hc => of_decide_eq_true (List.all_eq_true.mp h c hc)

theorem Numeric.ordinary {c : Char} (h : Numeric c) : Ordinary c := by
  rcases h with digit | sign
  · simp only [Ordinary, Opening, Closing, Spacing, not_or]
    refine ⟨?_, ⟨?_, ?_⟩, ⟨?_, ?_⟩, ?_, ?_⟩
    all_goals
      rintro rfl
      cases digit
  · exact ordinary_of_all (by decide) c sign

theorem Laid.ordinary {c : Char} (h : Ordinary c) (others : Laid e ⟨.outside, n⟩ t u) :
    Laid e ⟨.outside, n⟩ (c :: t) (c :: u) := by
  obtain ⟨quote, opening, closing, spacing⟩ := h
  refine .kept (fun both => spacing both.2) ⟨?_, fun _ open' => absurd open' opening⟩ ?_
  · rintro rfl
    exact absurd (.inr rfl) spacing
  · simpa [Scan.next, Place.next, quote, opening, closing] using others

theorem Laid.ordinaries (h : ∀ c ∈ t, Ordinary c) : Laid ⟨.outside, n⟩ ⟨.outside, n⟩ t t := by
  induction t with
  | nil => exact .nil
  | cons c t ih =>
    obtain ⟨first, others⟩ := List.forall_mem_cons.mp h
    exact .ordinary first (ih others)

theorem Laid.opening {c : Char} (h : Opening c) (filled : Filled t)
    (others : Laid e ⟨.outside, n + 1⟩ t u) : Laid e ⟨.outside, n⟩ (c :: t) (c :: u) := by
  have plain : c ≠ '"' ∧ ¬ Spacing c := by
    rcases h with rfl | rfl <;> decide
  refine .kept (fun both => plain.2 both.2) ⟨?_, fun _ _ => filled⟩ ?_
  · rintro rfl
    exact absurd (.inr rfl) plain.2
  · simpa [Scan.next, Place.next, plain.1, h] using others

theorem Laid.closing {c : Char} (h : Closing c) : Laid ⟨.outside, n⟩ ⟨.outside, n + 1⟩ [c] [c] := by
  have plain : c ≠ '"' ∧ ¬ Spacing c ∧ ¬ Opening c := by
    rcases h with rfl | rfl <;> decide
  refine .kept (fun both => plain.2.1 both.2) ⟨?_, fun _ opening => absurd opening plain.2.2⟩ ?_
  · rintro rfl
    exact absurd (.inr rfl) plain.2.1
  · have back : Scan.next ⟨.outside, n + 1⟩ c = ⟨.outside, n⟩ := by
      simp [Scan.next, Place.next, plain.1, plain.2.2, h]
    rw [back]
    exact .nil

theorem Laid.space (others : Laid e ⟨.outside, n⟩ t u) : Laid e ⟨.outside, n⟩ (' ' :: t) u :=
  .dropped ⟨rfl, .inl rfl⟩ ⟨nofun, fun _ opening => absurd opening (by decide)⟩ others

theorem Laid.spaces (count : Nat) (others : Laid e ⟨.outside, n⟩ t u) :
    Laid e ⟨.outside, n⟩ (List.replicate count ' ' ++ t) u := by
  induction count with
  | zero => exact others
  | succ count ih =>
    rw [List.replicate_succ, List.cons_append]
    exact .space ih

theorem Laid.lineBreak {d : Nat} {c : Char} (visible : c ≠ ' ')
    (count : n = d + if Closing c then 1 else 0) (others : Laid e ⟨.outside, n⟩ (c :: t) u) :
    Laid e ⟨.outside, n⟩ (Json.lineBreak true d ++ c :: t) u :=
  .dropped ⟨rfl, .inr rfl⟩
    ⟨fun _ => ⟨rfl, d, c, t, rfl, visible, count⟩, fun _ opening => absurd opening (by decide)⟩
    (.spaces (2 * d) others)

end Pieces

section Strings

variable {n : Int} {e : Scan} {t u : List Char}

theorem Laid.literal {p : Place} {c : Char} (inside : p ≠ .outside) (visible : c ≠ '\n')
    (others : Laid e ⟨p.next c, n⟩ t u) : Laid e ⟨p, n⟩ (c :: t) (c :: u) := by
  refine .kept (fun both => inside both.1) ⟨fun line => absurd line visible, ?_⟩ ?_
  · exact fun outside => absurd outside inside
  · simpa [Scan.next, inside] using others

theorem Laid.plain {c : Char} (quote : c ≠ '"') (backslash : c ≠ '\\') (visible : c ≠ '\n')
    (others : Laid e ⟨.inside, n⟩ t u) : Laid e ⟨.inside, n⟩ (c :: t) (c :: u) := by
  have stays : Place.next .inside c = .inside := by simp [Place.next, quote, backslash]
  refine .literal nofun visible ?_
  rw [stays]
  exact others

theorem Laid.escape {c : Char} (visible : c ≠ '\n') (others : Laid e ⟨.inside, n⟩ t u) :
    Laid e ⟨.inside, n⟩ ('\\' :: c :: t) ('\\' :: c :: u) := by
  have letter : Laid e ⟨.escaped, n⟩ (c :: t) (c :: u) := .literal nofun visible others
  exact .literal nofun (by decide) letter

theorem laid_escapeWith (c : Char) (others : Laid e ⟨.inside, n⟩ t u) :
    Laid e ⟨.inside, n⟩ (Quoted.escapeWith Quoted.letter? c ++ t)
      (Quoted.escapeWith Quoted.letter? c ++ u) := by
  unfold Quoted.escapeWith
  split
  · rename_i special
    have visible : c ≠ '\n' := by rcases special with rfl | rfl <;> decide
    exact .escape visible others
  · rename_i special
    obtain ⟨quote, backslash⟩ := not_or.mp special
    split
    · rename_i control
      cases named : Quoted.letter? c with
      | some l =>
        have visible : l ≠ '\n' := by
          unfold Quoted.letter? at named
          split at named <;> cases named <;> decide
        exact .escape visible others
      | none =>
        have digits : ∀ k < 16, Quoted.hexDigit k ≠ '"' ∧ Quoted.hexDigit k ≠ '\\' ∧
            Quoted.hexDigit k ≠ '\n' := by decide
        obtain ⟨q, b, l⟩ := digits (c.toNat / 16) (by omega)
        obtain ⟨q', b', l'⟩ := digits (c.toNat % 16) (by omega)
        have zero {t u : List Char} (others : Laid e ⟨.inside, n⟩ t u) :
            Laid e ⟨.inside, n⟩ ('0' :: t) ('0' :: u) :=
          .plain (by decide) (by decide) (by decide) others
        exact .escape (by decide) (zero (zero (.plain q b l (.plain q' b' l' others))))
    · rename_i visible
      refine .plain quote backslash ?_ others
      rintro rfl
      exact visible (by decide)

theorem laid_document (s : String) :
    Laid ⟨.outside, n⟩ ⟨.outside, n⟩ (Quoted.document s) (Quoted.document s) := by
  have closing : Laid ⟨.outside, n⟩ ⟨.inside, n⟩ ['"'] ['"'] := .literal nofun (by decide) .nil
  have content (cs : List Char) :
      Laid ⟨.outside, n⟩ ⟨.inside, n⟩ (cs.flatMap (Quoted.escapeWith Quoted.letter?) ++ ['"'])
        (cs.flatMap (Quoted.escapeWith Quoted.letter?) ++ ['"']) := by
    induction cs with
    | nil => exact closing
    | cons c cs ih =>
      rw [List.flatMap_cons, List.append_assoc]
      exact laid_escapeWith c ih
  refine .kept (fun both => absurd both.2 (by decide)) ⟨nofun, ?_⟩ (content s.toList)
  exact fun _ opening => absurd opening (by decide)

end Strings

end JsonFilter
