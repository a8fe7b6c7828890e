import JsonFilter.Proofs.Json.Block
import JsonFilter.Proofs.Json.Float

namespace JsonFilter

def Visible (cs : List Char) : Prop := ∀ c ∈ cs, 0x20 ≤ c.toNat

namespace Visible

variable {c : Char} {cs ds : List Char}

@[simp] theorem nil : Visible [] := nofun

@[simp] theorem cons_iff : Visible (c :: cs) ↔ 0x20 ≤ c.toNat ∧ Visible cs := List.forall_mem_cons

@[simp] theorem append_iff : Visible (cs ++ ds) ↔ Visible cs ∧ Visible ds := List.forall_mem_append

theorem flatMap {α : Type} {xs : List α} {f : α → List Char} (h : ∀ x ∈ xs, Visible (f x)) :
    Visible (xs.flatMap f) := by
  intro c hc
  obtain ⟨x, hx, hc⟩ := List.mem_flatMap.mp hc
  exact h x hx c hc

theorem not_mem_newline (h : Visible cs) : '\n' ∉ cs := fun hc => absurd (h _ hc) (by decide)

end Visible

theorem Numeric.visible {c : Char} (h : Numeric c) : 0x20 ≤ c.toNat := by
  rcases h with digit | sign
  · simp only [Char.isDigit, Bool.and_eq_true, decide_eq_true_eq, ge_iff_le,
      UInt32.le_iff_toNat_le] at digit
    have low : '0'.val.toNat = 48 := rfl
    have value : c.toNat = c.val.toNat := rfl
    omega
  · have all : ['-', '+', '.', 'e', 'E', 'n', 'u', 'l'].all fun c => 0x20 ≤ c.toNat := by decide
    exact of_decide_eq_true (List.all_eq_true.mp all c sign)

theorem Number.visible_chars (n : Number) : Visible n.chars ∧ n.chars ≠ [] :=
  ⟨fun c hc => (n.numeric_chars.1 c hc).visible, n.numeric_chars.2⟩

namespace Quoted

theorem visible_hexDigit {n : Nat} (h : n < 16) : 0x20 ≤ (hexDigit n).toNat := by
  have all : ∀ n < 16, 0x20 ≤ (hexDigit n).toNat := by decide
  exact all n h

theorem visible_letter {c l : Char} (h : letter? c = some l) : 0x20 ≤ l.toNat := by
  unfold letter? at h
  split at h <;> cases h <;> decide

theorem visible_escapeWith (c : Char) : Visible (escapeWith letter? c) := by
  unfold escapeWith
  split
  · rename_i h
    rcases h with rfl | rfl <;> simp
  · split
    · rename_i control
      cases named : letter? c with
      | some l => simp [visible_letter named]
      | none =>
        have high : c.toNat / 16 < 16 := by omega
        have low : c.toNat % 16 < 16 := by omega
        simp [unicodeEscape, visible_hexDigit high, visible_hexDigit low]
    · rename_i plain
      simpa using plain

theorem visible_document (s : String) : Visible (document s) := by
  have content : Visible (s.toList.flatMap (escapeWith letter?)) :=
    .flatMap fun c _ => visible_escapeWith c
  simp [document, quoteWith, content]

end Quoted

namespace Json

theorem visible_inside {depth : Nat} {parts : List (List Char)}
    (visible : ∀ p ∈ parts, Visible p) : Visible (inside false depth parts) := by
  cases parts with
  | nil => exact .nil
  | cons part parts =>
    have first := visible part List.mem_cons_self
    have others : Visible (parts.flatMap fun p => ',' :: p) :=
      .flatMap fun p hp => by simpa using visible p (List.mem_cons_of_mem part hp)
    simp [inside, lineBreak, first, others]

theorem visible_memberChars {depth : Nat} {m : String × Json}
    (value : Visible (m.2.chars false depth)) : Visible (memberChars false depth m) := by
  simp [memberChars, colon, Quoted.visible_document, value]

theorem visible_chars (j : Json) (depth : Nat) : Visible (j.chars false depth) := by
  induction j using parts_induction generalizing depth with
  | null => simp [chars]
  | bool b => cases b <;> simp [chars]
  | num n => exact n.visible_chars.1
  | str s => exact Quoted.visible_document s
  | arr xs ih =>
    have items : Visible (inside false depth (xs.map (chars false (depth + 1)))) :=
      visible_inside (List.forall_mem_map.mpr fun x hx => ih x hx (depth + 1))
    simp [chars_arr, items]
  | obj ms ih =>
    have members : Visible (inside false depth (ms.map (memberChars false (depth + 1)))) :=
      visible_inside (List.forall_mem_map.mpr fun m hm => visible_memberChars (ih m hm (depth + 1)))
    simp [chars_obj, members]

theorem chars_ne_nil (pretty : Bool) (depth : Nat) (j : Json) : j.chars pretty depth ≠ [] := by
  cases j with
  | null => simp [chars]
  | bool b => cases b <;> simp [chars]
  | num n => exact n.visible_chars.2
  | str s => simp [chars, Quoted.document, Quoted.quoteWith]
  | arr xs => cases xs <;> simp [chars]
  | obj ms => cases ms <;> simp [chars]

end Json

end JsonFilter
