import JsonFilter.Proofs.Json.Grammar.Literal
import JsonFilter.Proofs.Json.Repeats

namespace JsonFilter.Json

open Utf8 (Alike Like)

theorem isDigit_ascii (c : Char) (digit : c.isDigit = true) : c.toNat < 0x80 := by
  have upper : c ≤ '9' := of_decide_eq_true (Bool.and_eq_true_iff.mp digit).2
  exact Nat.lt_of_le_of_lt upper (by decide)

namespace Numeral

variable {bound : Nat} {negative : Bool} {n : Numeral} {c : Char} {cs ds rest : List Char}

def Stops (cs : List Char) : Prop := ∀ c ∈ cs.head?, c.isDigit = false

theorem Stops.alike (stops : Stops cs) (alike : Alike 1 cs ds) : Stops ds := by
  rcases cs with _ | ⟨c, cs⟩
  · rw [alike.nil]
    nofun
  · obtain ⟨d, ds, rfl, like⟩ := alike.head
    rintro _ ⟨⟩
    rw [like.test isDigit_ascii, stops c rfl]

theorem Stops.cons (other : c.isDigit = false) (cs : List Char) : Stops (c :: cs) := by
  rintro _ ⟨⟩
  exact other

theorem splitDigits_stops (split : splitDigits cs = (ds, rest)) : Stops rest := by
  rw [splitDigits, List.span_eq_takeWhile_dropWhile] at split
  obtain ⟨-, rfl⟩ := Prod.mk.inj split
  intro c next
  have first := List.head?_dropWhile_not Char.isDigit cs
  rwa [next] at first

section Digits

def digits : Reader (List Char) := fun cs =>
  match splitDigits cs with
  | ([], []) => .error (.at .eofValue [])
  | ([], rest) => .error (.at .invalidNumber rest)
  | (ds, rest) => .ok (ds, rest)

theorem digits_other (other : c.isDigit = false) (cs : List Char) :
    digits (c :: cs) = .error (.at .invalidNumber (c :: cs)) := by
  have split : splitDigits (c :: cs) = ([], c :: cs) :=
    splitDigits_append (List.forall_mem_nil _) (Stops.cons other cs)
  simp only [digits, split]

theorem digits_append (some : ds ≠ []) (all : ∀ c ∈ ds, c.isDigit = true) (stops : Stops rest) :
    digits (ds ++ rest) = .ok (ds, rest) := by
  obtain ⟨d, ds, rfl⟩ := List.exists_cons_of_ne_nil some
  simp only [digits, splitDigits_append all stops]

theorem digits_repeats (cs : List Char) : Repeats digits bound cs (digits cs) := by
  rcases split : splitDigits cs with ⟨ds, rest⟩
  obtain ⟨rfl, all⟩ := splitDigits_eq split
  have stops := splitDigits_stops split
  rcases ds with _ | ⟨d, ds⟩
  · rcases rest with _ | ⟨c, rest⟩
    · exact .ended rfl
    · have other := stops c rfl
      rw [List.nil_append, digits_other other]
      refine .refused rfl rest c fun d ds like _ => digits_other ?_ ds
      rw [like.test isDigit_ascii, other]
  · have some : d :: ds ≠ [] := List.cons_ne_nil d ds
    rw [digits_append some all stops]
    exact .ok rfl fun _ alike _ => digits_append some all (stops.alike alike)

end Digits

section Parts

theorem exponentPart_signed {sign : Char} (signed : Grammar.ExponentSign negative [sign])
    (cs : List Char) :
    exponentPart (sign :: cs) = digits cs >>= fun p => .ok ((negative, p.1), p.2) := by
  cases signed <;> simp only [exponentPart, digits] <;>
    rcases splitDigits cs with ⟨_ | ⟨d, ds⟩, _ | ⟨c, rest⟩⟩ <;> rfl

theorem exponentPart_unsigned (plus : cs.head? ≠ some '+') (minus : cs.head? ≠ some '-') :
    exponentPart cs = digits cs >>= fun p => .ok ((false, p.1), p.2) := by
  rcases cs with _ | ⟨c, cs⟩
  · rfl
  · have plus : c ≠ '+' := fun same => plus (congrArg some same)
    have minus : c ≠ '-' := fun same => minus (congrArg some same)
    rcases split : splitDigits (c :: cs) with ⟨_ | ⟨d, ds⟩, _ | ⟨e, rest⟩⟩ <;>
      simp [exponentPart, digits, plus, minus, split, Bind.bind, Except.bind]

theorem exponentPart_repeats (cs : List Char) :
    Repeats exponentPart bound cs (exponentPart cs) := by
  have read (negative : Bool) (cs : List Char) :
      Repeats (fun ds => digits ds >>= fun p => .ok ((negative, p.1), p.2)) bound cs
        (digits cs >>= fun p => .ok ((negative, p.1), p.2)) := (digits_repeats cs).map (negative, ·)
  have behind {sign : Char} {negative : Bool} (signed : Grammar.ExponentSign negative [sign])
      (cs : List Char) : Repeats exponentPart bound (sign :: cs) (exponentPart (sign :: cs)) := by
    rw [exponentPart_signed signed]
    exact (read negative cs).behind [sign] (fun ds _ _ => exponentPart_signed signed ds)
      (Nat.le_add_right _ _)
  by_cases plus : cs.head? = some '+'
  · obtain ⟨cs, rfl⟩ := List.head?_eq_some_iff.mp plus
    exact behind .plus cs
  by_cases minus : cs.head? = some '-'
  · obtain ⟨cs, rfl⟩ := List.head?_eq_some_iff.mp minus
    exact behind .minus cs
  · rw [exponentPart_unsigned plus minus]
    exact (read false cs).congr fun ds alike _ =>
      exponentPart_unsigned (alike.head_ne plus (by decide)) (alike.head_ne minus (by decide))

theorem withExponent_letter {letter : Char} (marked : letter = 'e' ∨ letter = 'E') (n : Numeral)
    (cs : List Char) : withExponent n (letter :: cs) =
      exponentPart cs >>= fun p => .ok ({ n with exponent := some p.1 }, p.2) := by
  rcases marked with rfl | rfl
  · rfl
  · rfl

theorem withExponent_none (lower : cs.head? ≠ some 'e') (upper : cs.head? ≠ some 'E')
    (n : Numeral) : withExponent n cs = .ok (n, cs) := by
  unfold withExponent
  split
  · exact absurd rfl lower
  · exact absurd rfl upper
  · rfl

theorem withExponent_repeats (n : Numeral) (cs : List Char) :
    Repeats (withExponent n) bound cs (withExponent n cs) := by
  have behind {letter : Char} (marked : letter = 'e' ∨ letter = 'E') (cs : List Char) :
      Repeats (withExponent n) bound (letter :: cs) (withExponent n (letter :: cs)) := by
    rw [withExponent_letter marked]
    exact ((exponentPart_repeats cs).map fun e => { n with exponent := some e }).behind [letter]
      (fun ds _ _ => withExponent_letter marked n ds) (Nat.le_add_right _ _)
  by_cases lower : cs.head? = some 'e'
  · obtain ⟨cs, rfl⟩ := List.head?_eq_some_iff.mp lower
    exact behind (.inl rfl) cs
  by_cases upper : cs.head? = some 'E'
  · obtain ⟨cs, rfl⟩ := List.head?_eq_some_iff.mp upper
    exact behind (.inr rfl) cs
  · rw [withExponent_none lower upper]
    exact (Repeats.pure n cs).congr fun ds alike _ =>
      withExponent_none (alike.head_ne lower (by decide)) (alike.head_ne upper (by decide)) n

theorem withFraction_point (n : Numeral) (cs : List Char) :
    withFraction n ('.' :: cs) =
      digits cs >>= fun p => withExponent { n with fraction := some p.1 } p.2 := by
  simp only [withFraction, digits]
  rcases splitDigits cs with ⟨_ | ⟨d, ds⟩, _ | ⟨c, rest⟩⟩ <;> rfl

theorem withFraction_none (point : cs.head? ≠ some '.') (n : Numeral) :
    withFraction n cs = withExponent n cs := by
  unfold withFraction
  split
  · exact absurd rfl point
  · rfl

theorem withFraction_repeats (n : Numeral) (cs : List Char) :
    Repeats (withFraction n) bound cs (withFraction n cs) := by
  by_cases point : cs.head? = some '.'
  · obtain ⟨cs, rfl⟩ := List.head?_eq_some_iff.mp point
    rw [withFraction_point]
    exact Repeats.behind ['.'] ((digits_repeats cs).bind fun ds rest =>
        withExponent_repeats { n with fraction := some ds } rest)
      (fun ds _ _ => withFraction_point n ds) (Nat.le_add_right _ _)
  · rw [withFraction_none point]
    exact (withExponent_repeats n cs).congr fun ds alike _ =>
      withFraction_none (alike.head_ne point (by decide)) n

end Parts

section Whole

theorem unsigned_zeros (digit : c.isDigit = true) (cs : List Char) :
    unsigned negative ('0' :: c :: cs) = .error (.at .invalidNumber (c :: cs)) := by
  have split : splitDigits ('0' :: c :: cs) =
      ('0' :: c :: cs.takeWhile Char.isDigit, cs.dropWhile Char.isDigit) := by
    rw [splitDigits, List.span_eq_takeWhile_dropWhile, List.takeWhile_cons_of_pos rfl,
      List.takeWhile_cons_of_pos digit, List.dropWhile_cons_of_pos rfl,
      List.dropWhile_cons_of_pos digit]
  simp only [unsigned, split, List.cons_append, List.takeWhile_append_dropWhile]

theorem unsigned_zero (stops : Stops cs) :
    unsigned negative ('0' :: cs) = withFraction ⟨negative, ['0'], none, none⟩ cs := by
  have zero : ∀ c ∈ ['0'], c.isDigit = true := List.forall_mem_singleton.mpr rfl
  have split : splitDigits ('0' :: cs) = (['0'], cs) := splitDigits_append zero stops
  simp only [unsigned, split]

theorem unsigned_digits (zero : cs.head? ≠ some '0') :
    unsigned negative cs =
      digits cs >>= fun p => withFraction ⟨negative, p.1, none, none⟩ p.2 := by
  rcases split : splitDigits cs with ⟨_ | ⟨d, ds⟩, _ | ⟨c, rest⟩⟩
  · simp only [unsigned, digits, split]
    rfl
  · simp only [unsigned, digits, split]
    rfl
  all_goals
    obtain ⟨parts, -⟩ := splitDigits_eq split
    have other : d ≠ '0' := by
      rintro rfl
      exact zero (congrArg List.head? parts)
    simp [unsigned, digits, split, other, Bind.bind, Except.bind]

theorem unsigned_repeats (negative : Bool) (cs : List Char) :
    Repeats (unsigned negative) bound cs (unsigned negative cs) := by
  by_cases zero : cs.head? = some '0'
  · obtain ⟨cs, rfl⟩ := List.head?_eq_some_iff.mp zero
    by_cases stops : Stops cs
    · rw [unsigned_zero stops]
      exact (withFraction_repeats _ cs).behind ['0']
        (fun ds alike _ => unsigned_zero (stops.alike alike)) (Nat.le_add_right _ _)
    · -- a digit behind a zero is refused
      obtain ⟨c, next, digit⟩ : ∃ c ∈ cs.head?, c.isDigit = true := by
        simpa [Stops] using stops
      obtain ⟨cs, rfl⟩ := List.head?_eq_some_iff.mp next
      rw [unsigned_zeros digit]
      refine Repeats.behind ['0'] (q := fun ds => unsigned negative ('0' :: ds))
        (.refused rfl cs c fun d ds like _ => ?_) (fun _ _ _ => rfl) (Nat.le_add_right _ _)
      exact unsigned_zeros ((like.test isDigit_ascii).trans digit) ds
  · rw [unsigned_digits zero]
    exact Repeats.congr ((digits_repeats cs).bind fun ds rest =>
        withFraction_repeats ⟨negative, ds, none, none⟩ rest)
      fun ds alike _ => unsigned_digits (alike.head_ne zero (by decide))

theorem read_plain (sign : cs.head? ≠ some '-') : read cs = unsigned false cs := by
  unfold read
  split
  · exact absurd rfl sign
  · rfl

theorem read_repeats (cs : List Char) : Repeats read bound cs (read cs) := by
  by_cases sign : cs.head? = some '-'
  · obtain ⟨cs, rfl⟩ := List.head?_eq_some_iff.mp sign
    exact (unsigned_repeats true cs).behind ['-'] (fun _ _ _ => rfl) (Nat.le_add_right _ _)
  · rw [read_plain sign]
    exact (unsigned_repeats false cs).congr fun ds alike _ =>
      read_plain (alike.head_ne sign (by decide))

end Whole

def number (n : Numeral) : Reader Number := fun cs =>
  match n.number? with
  | some v => .ok (v, cs)
  | none => .error (.behind .numberOutOfRange (n.unread ++ cs))

theorem number_repeats (n : Numeral) (cs : List Char) :
    Repeats n.number bound cs (n.number cs) := by
  unfold number
  cases n.number? with
  | none => exact .overflow
  | some v => exact .pure v cs

end Numeral

theorem readNumber_repeats (bound : Nat) (cs : List Char) :
    Repeats readNumber bound cs (readNumber cs) :=
  (Numeral.read_repeats cs).bind Numeral.number_repeats

end JsonFilter.Json
