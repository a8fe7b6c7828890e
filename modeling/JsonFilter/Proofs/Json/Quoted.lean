import JsonFilter.Proofs.Json.Grammar.Quotation

namespace JsonFilter

theorem Quoted.hexValue_hexDigit {n : Nat} (h : n < 16) : hexValue? (hexDigit n) = some n := by
  have all : ∀ n < 16, hexValue? (hexDigit n) = some n := by decide
  exact all n h

theorem Quoted.escapeWith_ne_nil (letter : Char → Option Char) (c : Char) :
    escapeWith letter c ≠ [] := by
  unfold escapeWith
  split
  · simp
  · split
    · split <;> simp [unicodeEscape]
    · simp

theorem Quoted.length_quoteWith (letter : Char → Option Char) (s : List Char) :
    s.length + 2 ≤ (quoteWith letter s).length := by
  induction s with
  | nil => simp [quoteWith]
  | cons c s ih =>
    have one := List.length_pos_iff.mpr (escapeWith_ne_nil letter c)
    simp only [quoteWith, List.flatMap_cons, List.length_cons, List.length_append] at ih ⊢
    omega

namespace Json

open Grammar
open Quoted (hexValue? escapeWith letter?)

theorem letter_mem_letters {c l : Char} (h : letter? c = some l) : (l, c) ∈ letters := by
  unfold letter? at h
  split at h <;> cases h <;> simp [letters]

theorem character_unicodeEscape {c : Char} (h : c.toNat < 0x20) :
    Character c (Quoted.unicodeEscape c) := by
  have zero : hexValue? '0' = some 0 := by decide
  have high := Quoted.hexValue_hexDigit (n := c.toNat / 16) (by omega)
  have low := Quoted.hexValue_hexDigit (n := c.toNat % 16) (by omega)
  have unit := CodeUnit.mk zero zero high low
  have value : ((0 * 16 + 0) * 16 + c.toNat / 16) * 16 + c.toNat % 16 = c.toNat := by omega
  rw [value] at unit
  have notHigh : ¬ HighSurrogate c.toNat := by
    unfold HighSurrogate
    omega
  have notLow : ¬ LowSurrogate c.toNat := by
    unfold LowSurrogate
    omega
  have single := Character.single unit notHigh notLow
  rw [Char.ofNat_toNat] at single
  exact single

theorem character_escapeWith (c : Char) : Character c (escapeWith letter? c) := by
  unfold escapeWith
  split
  · rename_i h
    rcases h with rfl | rfl <;> exact .letter (by simp [letters])
  · rename_i plain
    obtain ⟨quote, backslash⟩ := not_or.mp plain
    split
    · rename_i control
      cases named : letter? c with
      | some l => exact .letter (letter_mem_letters named)
      | none => exact character_unicodeEscape control
    · rename_i visible
      exact .plain quote backslash (Nat.le_of_not_lt visible)

theorem characters_flatMap (s : List Char) : Characters s (s.flatMap (escapeWith letter?)) := by
  induction s with
  | nil => exact .nil
  | cons c s ih => exact .cons (character_escapeWith c) ih

theorem quotation_document (s : String) : Quotation s (Quoted.document s) := by
  have quoted := Quotation.mk (characters_flatMap s.toList)
  rw [String.ofList_toList] at quoted
  exact quoted

theorem document_append (s : String) (rest : List Char) :
    Quoted.document s ++ rest = '"' :: (s.toList.flatMap (escapeWith letter?) ++ '"' :: rest) := by
  simp [Quoted.document, Quoted.quoteWith]

theorem string_document {s : String} {fuel : Nat} (h : (Quoted.document s).length ≤ fuel)
    (rest : List Char) :
    string fuel (s.toList.flatMap (escapeWith letter?) ++ '"' :: rest) = .ok (s, rest) := by
  obtain ⟨cs, text, read⟩ := string_complete (quotation_document s) h rest
  rw [document_append] at text
  obtain ⟨-, rfl⟩ := List.cons.inj text
  exact read

end Json

end JsonFilter
