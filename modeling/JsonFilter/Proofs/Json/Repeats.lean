import JsonFilter.Proofs.Json.Grammar.Container
import JsonFilter.Proofs.Text.Alike

namespace JsonFilter.Json

open Grammar
open Utf8 (Alike Like byteCount)

/-- The result `r` of reading `cs`, and that the reader `q` gives it again for texts shorter than
the bound. -/
inductive Repeats {α : Type} (q : Reader α) (bound : Nat) (cs : List Char) :
    Except Fault (α × List Char) → Prop
  | ok {x : α} {taken rest : List Char} (split : cs = taken ++ rest)
      (again : ∀ ds, Alike 1 rest ds → (taken ++ ds).length < bound →
        q (taken ++ ds) = .ok (x, ds)) : Repeats q bound cs (.ok (x, rest))
  | ended {cause : Cause} (eof : cause.isEof = true) : Repeats q bound cs (.error (.at cause []))
  | overflow {rest : List Char} : Repeats q bound cs (.error (.behind .numberOutOfRange rest))
  | fault {cause : Cause} {taken rest : List Char} {seen : Nat} (split : cs = taken ++ rest)
      (final : cause.isEof = false) (inside : seen ≤ byteCount rest) (some : 0 < seen ∨ taken ≠ [])
      (again : ∀ ds, Alike seen rest ds → (taken ++ ds).length < bound →
        q (taken ++ ds) = .error ⟨cause, ds, seen⟩) :
      Repeats q bound cs (.error ⟨cause, rest, seen⟩)

theorem exists_fuel {k fuel : Nat} (enough : k < fuel) : ∃ n, fuel = n + 1 :=
  Nat.exists_eq_add_one.mpr (Nat.zero_lt_of_lt enough)

theorem isBlank_ascii (c : Char) (blank : isBlank c = true) : c.toNat < 0x80 := by
  have listed := isBlank_iff.mp blank
  simp only [List.mem_cons, List.not_mem_nil, or_false] at listed
  rcases listed with rfl | rfl | rfl | rfl <;> decide

theorem skipBlanks_head {c : Char} {cs more : List Char} (found : skipBlanks cs = c :: more) :
    isBlank c = false := by
  have first := List.head?_dropWhile_not isBlank cs
  rwa [← skipBlanks, found] at first

namespace Repeats

variable {α β : Type} {q q' : Reader α} {bound bound' : Nat} {c : Char} {cs more : List Char}
  {r : Except Fault (α × List Char)} {cause : Cause}

theorem behind (front : List Char) (h : Repeats q bound cs r)
    (same : ∀ ds, Alike 1 cs ds → (front ++ ds).length < bound' → q' (front ++ ds) = q ds)
    (room : bound' ≤ bound + front.length) : Repeats q' bound' (front ++ cs) r := by
  have inner {ds : List Char} (short : (front ++ ds).length < bound') : ds.length < bound := by
    rw [List.length_append] at short
    omega
  cases h with
  | ended eof => exact .ended eof
  | overflow => exact .overflow
  | @ok x taken rest split again =>
    subst split
    refine .ok (List.append_assoc ..).symm fun ds alike short => ?_
    rw [List.append_assoc] at short ⊢
    rw [same _ (alike.first (.inl Nat.one_pos)) short]
    exact again ds alike (inner short)
  | @fault cause taken rest seen split final inside some again =>
    subst split
    -- the next byte is that of what was taken, or one of those that the fault counts as read
    refine .fault (List.append_assoc ..).symm final inside ?_ fun ds alike short => ?_
    · exact some.imp_right fun taken empty => taken (List.append_eq_nil_iff.mp empty).2
    · rw [List.append_assoc] at short ⊢
      rw [same _ (alike.first some) short]
      exact again ds alike (inner short)

theorem congr (h : Repeats q bound cs r)
    (same : ∀ ds, Alike 1 cs ds → ds.length < bound → q' ds = q ds) : Repeats q' bound cs r :=
  h.behind [] same (Nat.le_refl _)

theorem pure (x : α) (cs : List Char) : Repeats (fun ds => .ok (x, ds)) bound cs (.ok (x, cs)) :=
  .ok (List.nil_append cs).symm fun _ _ _ => rfl

theorem refused (final : cause.isEof = false) (cs : List Char) (c : Char)
    (same : ∀ d ds, Like c d → (d :: ds).length < bound →
      q (d :: ds) = .error (.at cause (d :: ds))) :
    Repeats q bound (c :: cs) (.error (.at cause (c :: cs))) := by
  refine .fault (List.nil_append _).symm final (Utf8.byteCount_pos (List.cons_ne_nil c cs))
    (.inl Nat.one_pos) fun ds alike short => ?_
  obtain ⟨d, ds, rfl, like⟩ := alike.head
  exact same d ds like short

theorem bind {k l : α → Reader β} (first : Repeats q bound cs r)
    (next : ∀ x rest, Repeats (l x) bound rest (k x rest)) :
    Repeats (fun ds => q ds >>= fun p => l p.1 p.2) bound cs (r >>= fun p => k p.1 p.2) := by
  cases first with
  | ended eof => exact .ended eof
  | overflow => exact .overflow
  | @ok x taken rest split again =>
    subst split
    refine (next x rest).behind taken (fun ds alike short => ?_) (Nat.le_add_right _ _)
    rw [again ds alike short]
    rfl
  | fault split final inside some again =>
    refine .fault split final inside some fun ds alike short => ?_
    rw [again ds alike short]
    rfl

theorem map (f : α → β) (h : Repeats q bound cs r) :
    Repeats (fun ds => q ds >>= fun p => .ok (f p.1, p.2)) bound cs
      (r >>= fun p => .ok (f p.1, p.2)) :=
  h.bind (l := fun x ds => .ok (f x, ds)) fun x rest => .pure (f x) rest

theorem next (found : skipBlanks cs = c :: more) (h : Repeats q bound (c :: more) r)
    (same : ∀ ds d more', skipBlanks ds = d :: more' → Like c d → ds.length < bound →
      q' ds = q (d :: more')) : Repeats q' bound cs r := by
  obtain ⟨b, split, blanks⟩ := exists_blanks cs
  rw [found] at split
  subst split
  refine h.behind b (fun ds alike short => ?_) (Nat.le_add_right _ _)
  obtain ⟨d, more', rfl, like⟩ := alike.head
  have blank : isBlank d = false := (like.test isBlank_ascii).trans (skipBlanks_head found)
  exact same _ d more' (blanks.skip_cons blank more') like short

theorem nextIs (found : skipBlanks cs = c :: more) (ascii : c.toNat < 0x80)
    (h : Repeats q bound more r) (room : bound' ≤ bound + 1)
    (same : ∀ ds more', skipBlanks ds = c :: more' → ds.length < bound' → q' ds = q more') :
    Repeats q' bound' cs r := by
  -- no character but the same one has its byte
  have behind : Repeats (fun ds => q ds.tail) bound' (c :: more) r :=
    h.behind [c] (fun _ _ _ => rfl) room
  refine .next found behind fun ds d more' next like short => ?_
  obtain rfl : d = c := (like c ascii).mpr rfl
  exact same ds more' next short

theorem mono (h : Repeats q bound cs r) (less : bound' ≤ bound) : Repeats q bound' cs r :=
  h.behind [] (fun _ _ _ => rfl) less

theorem refusedNext (found : skipBlanks cs = c :: more) (final : cause.isEof = false)
    (same : ∀ ds d more', skipBlanks ds = d :: more' → Like c d → ds.length < bound →
      q ds = .error (.at cause (d :: more'))) :
    Repeats q bound cs (.error (.at cause (c :: more))) :=
  .next found (.refused (q := fun ds => .error (.at cause ds)) final more c fun _ _ _ _ => rfl) same

end Repeats

end JsonFilter.Json
