import JsonFilter.Proofs.Text.Utf8

namespace JsonFilter.Utf8

def bytes (cs : List Char) : List Nat := cs.flatMap encodeChar

theorem bytes_cons (c : Char) (cs : List Char) : bytes (c :: cs) = encodeChar c ++ bytes cs :=
  List.flatMap_cons

theorem bytes_append (cs ds : List Char) : bytes (cs ++ ds) = bytes cs ++ bytes ds :=
  List.flatMap_append

theorem byteCount_cons (c : Char) (cs : List Char) :
    byteCount (c :: cs) = c.utf8Size + byteCount cs := rfl

theorem encodeChar_length (c : Char) : (encodeChar c).length = c.utf8Size := by
  simp only [encodeChar, Char.utf8Size, Char.toNat, UInt32.le_iff_toNat_le, UInt32.toNat_ofNatLT]
  split_ifs
  all_goals first
    | rfl
    | omega

theorem bytes_length (cs : List Char) : (bytes cs).length = byteCount cs := by
  induction cs with
  | nil => rfl
  | cons c cs ih => rw [bytes_cons, List.length_append, encodeChar_length, ih, byteCount_cons]

theorem byteCount_append (cs ds : List Char) :
    byteCount (cs ++ ds) = byteCount cs + byteCount ds := by
  rw [← bytes_length, bytes_append, List.length_append, bytes_length, bytes_length]

theorem byteCount_pos {cs : List Char} (some : cs ≠ []) : 0 < byteCount cs := by
  obtain ⟨c, cs, rfl⟩ := List.exists_cons_of_ne_nil some
  have := c.utf8Size_pos
  rw [byteCount_cons]
  omega

def Ascii (cs : List Char) : Prop := ∀ c ∈ cs, c.toNat < 0x80

instance (cs : List Char) : Decidable (Ascii cs) :=
  List.decidableBAll (fun c : Char => c.toNat < 0x80) cs

/-- No ASCII character tells the two apart. -/
def Like (c d : Char) : Prop := ∀ a : Char, a.toNat < 0x80 → (d = a ↔ c = a)

namespace Like

variable {c d : Char}

theorem ne (like : Like c d) {a : Char} (other : c ≠ a) (ascii : a.toNat < 0x80) : d ≠ a :=
  mt (like a ascii).mp other

theorem mem (like : Like c d) {as : List Char} (member : c ∈ as)
    (ascii : Ascii as) : d ∈ as := by
  rwa [(like c (ascii c member)).mpr rfl]

theorem not_mem (like : Like c d) {as : List Char} (other : c ∉ as)
    (ascii : Ascii as) : d ∉ as := by
  intro member
  rw [← (like d (ascii d member)).mp rfl] at member
  exact other member

theorem test (like : Like c d) {P : Char → Bool} (ascii : ∀ a, P a = true → a.toNat < 0x80) :
    P d = P c := by
  cases right : P d with
  | true => rw [(like d (ascii d right)).mp rfl, right]
  | false =>
    cases left : P c with
    | false => rfl
    | true =>
      rw [(like c (ascii c left)).mpr rfl, left] at right
      cases right

end Like

theorem encodeChar_head (c : Char) :
    ∃ b bs, encodeChar c = b :: bs ∧ ∀ a : Char, a.toNat < 0x80 → (b = a.toNat ↔ c = a) := by
  by_cases ascii : c.toNat < 0x80
  · refine ⟨c.toNat, [], if_pos ascii, fun a _ => ⟨fun same => Char.toNat_inj.mp same, ?_⟩⟩
    rintro rfl
    rfl
  · have far (b : Nat) (high : 0xC0 ≤ b) (a : Char) (low : a.toNat < 0x80) :
        b = a.toNat ↔ c = a := by
      refine ⟨fun same => by omega, ?_⟩
      rintro rfl
      exact absurd low ascii
    unfold encodeChar
    simp only [ascii, if_false]
    split_ifs
    all_goals exact ⟨_, _, rfl, far _ (by omega)⟩

theorem encodeChar_unique {c d : Char} {s t : List Nat}
    (same : encodeChar c ++ s = encodeChar d ++ t) : c = d := by
  rcases lt_trichotomy c d with less | equal | less
  · have order := encodeChar_append_lt less s t
    rw [same] at order
    exact absurd order (lt_irrefl _)
  · exact equal
  · have order := encodeChar_append_lt less t s
    rw [same] at order
    exact absurd order (lt_irrefl _)

def Alike (n : Nat) (cs ds : List Char) : Prop := (bytes cs).take n = (bytes ds).take n

namespace Alike

variable {n m : Nat} {c : Char} {cs ds es : List Char}

theorem symm (h : Alike n cs ds) : Alike n ds cs := Eq.symm h

theorem mono (h : Alike n cs ds) (less : m ≤ n) : Alike m cs ds := by
  have cut := congrArg (List.take m) h
  rwa [List.take_take, List.take_take, Nat.min_eq_left less] at cut

theorem nil (h : Alike (n + 1) [] ds) : ds = [] := by
  by_contra some
  have length := congrArg List.length h
  have bytes := byteCount_pos some
  rw [List.length_take, List.length_take, bytes_length, bytes_length] at length
  have none : byteCount [] = 0 := rfl
  omega

theorem head (h : Alike (n + 1) (c :: cs) ds) : ∃ d ds', ds = d :: ds' ∧ Like c d := by
  rcases ds with _ | ⟨d, ds⟩
  · cases h.symm.nil
  · refine ⟨d, ds, rfl, fun a ascii => ?_⟩
    have first := h.mono (Nat.le_add_left 1 n)
    obtain ⟨b, bs, left, sameLeft⟩ := encodeChar_head c
    obtain ⟨b', bs', right, sameRight⟩ := encodeChar_head d
    rw [Alike, bytes_cons, bytes_cons, left, right] at first
    have same : b = b' := (List.cons.inj first).1
    rw [← sameLeft a ascii, ← sameRight a ascii, same]

theorem head_ne (h : Alike (n + 1) cs ds) {a : Char} (other : cs.head? ≠ some a)
    (ascii : a.toNat < 0x80) : ds.head? ≠ some a := by
  rcases cs with _ | ⟨c, cs⟩
  · rw [h.nil]
    exact other
  · obtain ⟨d, ds, rfl, like⟩ := h.head
    have ne : c ≠ a := fun same => other (congrArg some same)
    exact fun same => like.ne ne ascii (Option.some.inj same)

theorem cons (c : Char) (cs ds : List Char) : Alike 1 (c :: cs) (c :: ds) := by
  obtain ⟨b, bs, first, -⟩ := encodeChar_head c
  rw [Alike, bytes_cons, bytes_cons, first]
  rfl

theorem uncons (h : Alike (c.utf8Size + n) (c :: cs) ds) :
    ∃ ds', ds = c :: ds' ∧ Alike n cs ds' := by
  have cut (ds : List Char) : (bytes (c :: ds)).take (c.utf8Size + n) =
      encodeChar c ++ (bytes ds).take n := by
    rw [bytes_cons, ← encodeChar_length, List.take_length_add_append]
  have := c.utf8Size_pos
  obtain ⟨k, enough⟩ : ∃ k, c.utf8Size + n = k + 1 := ⟨c.utf8Size + n - 1, by omega⟩
  obtain ⟨d, ds, rfl, -⟩ := (enough ▸ h : Alike (k + 1) (c :: cs) ds).head
  have split := List.take_append_drop (c.utf8Size + n) (bytes (d :: ds))
  rw [← h, cut, bytes_cons, List.append_assoc] at split
  obtain rfl := encodeChar_unique split
  refine ⟨ds, rfl, ?_⟩
  rw [Alike, cut, cut] at h
  exact List.append_cancel_left h

theorem split (h : Alike (byteCount cs + n) (cs ++ es) ds) :
    ∃ rest, ds = cs ++ rest ∧ Alike n es rest := by
  induction cs generalizing ds with
  | nil => exact ⟨ds, rfl, by simpa [byteCount] using h⟩
  | cons c cs ih =>
    rw [byteCount_cons, Nat.add_assoc] at h
    obtain ⟨ds, rfl, later⟩ := h.uncons
    obtain ⟨rest, rfl, same⟩ := ih later
    exact ⟨rest, rfl, same⟩

/-- Whole characters in front, or at least one byte behind them, are seen in the first byte. -/
theorem first (h : Alike n cs ds) {front : List Char} (seen : 0 < n ∨ front ≠ []) :
    Alike 1 (front ++ cs) (front ++ ds) := by
  rcases front with _ | ⟨c, front⟩
  · exact h.mono (seen.resolve_right fun none => none rfl)
  · exact cons c _ _

end Alike

end JsonFilter.Utf8
