import JsonFilter.Format
import JsonFilter.Proofs.Json.Part
import JsonFilter.Proofs.Json.Scan
import JsonFilter.Proofs.Related

namespace JsonFilter

namespace Json

def Begins (t : List Char) : Prop := ∃ c rest, t = c :: rest ∧ ¬ Spacing c ∧ ¬ Closing c

/-- Indented and compact text of a value inside as many containers. -/
structure Piece (nesting : Nat) (t u : List Char) : Prop where
  begins : Begins t
  laid : Laid ⟨.outside, nesting⟩ ⟨.outside, nesting⟩ t u

section Parts

variable {d : Nat} {e : Scan} {t u t' u' : List Char} {parts others : List (List Char)}

theorem Piece.line (piece : Piece d t u) (behind : Laid e ⟨.outside, d⟩ t' u') :
    Laid e ⟨.outside, d⟩ (lineBreak true d ++ (t ++ t')) (lineBreak false d ++ (u ++ u')) := by
  obtain ⟨⟨c, rest, rfl, visible, closing⟩, laid⟩ := piece
  exact .lineBreak (fun space => visible (.inl space)) (by simp [closing]) (laid.append behind)

theorem laid_behind (pieces : List.Forall₂ (Piece (d + 1)) parts others) {close : Char}
    (closing : Closing close) :
    Laid ⟨.outside, d⟩ ⟨.outside, (d + 1 : Nat)⟩
      (parts.flatMap (fun p => ',' :: (lineBreak true (d + 1) ++ p)) ++
        (lineBreak true d ++ [close]))
      (others.flatMap (fun p => ',' :: (lineBreak false (d + 1) ++ p)) ++ [close]) := by
  induction pieces with
  | nil =>
    have visible : close ≠ ' ' := by rcases closing with rfl | rfl <;> decide
    exact .lineBreak visible (by simp [closing]) (.closing closing)
  | cons piece _ ih =>
    simp only [List.flatMap_cons, List.cons_append, List.append_assoc]
    exact .ordinary (by decide) (piece.line ih)

theorem laid_inside (pieces : List.Forall₂ (Piece (d + 1)) parts others) {close : Char}
    (closing : Closing close) :
    Laid ⟨.outside, d⟩ ⟨.outside, (d + 1 : Nat)⟩ (inside true d parts ++ [close])
      (inside false d others ++ [close]) := by
  cases pieces with
  | nil => exact .closing closing
  | cons piece pieces =>
    have laid := piece.line (laid_behind pieces closing)
    simpa [inside, lineBreak] using laid

theorem filled_inside (begins : ∀ p ∈ parts, Begins p) {close : Char} (closing : Closing close) :
    Filled (inside true d parts ++ [close]) := by
  cases parts with
  | nil =>
    refine ⟨[], close, [], rfl, nofun, ?_, fun _ => rfl⟩
    rcases closing with rfl | rfl <;> decide
  | cons p parts =>
    obtain ⟨c, rest, rfl, visible, part⟩ := begins p List.mem_cons_self
    have space : ∀ b ∈ lineBreak true (d + 1), Spacing b := by
      intro b hb
      rcases List.mem_cons.mp hb with rfl | hb
      · exact .inr rfl
      · exact .inl (List.eq_of_mem_replicate hb)
    have first : Filled (lineBreak true (d + 1) ++ c :: rest) :=
      ⟨_, c, rest, rfl, space, visible, fun close => absurd close part⟩
    simp only [inside, List.append_assoc]
    rw [← List.append_assoc]
    exact first.append _

theorem piece_container (pieces : List.Forall₂ (Piece (d + 1)) parts others) {opener close : Char}
    (opening : Opening opener) (closing : Closing close) :
    Piece d (opener :: (inside true d parts ++ [close]))
      (opener :: (inside false d others ++ [close])) := by
  have begins : ∀ p ∈ parts, Begins p := by
    intro p hp
    obtain ⟨q, -, piece⟩ := forall₂_mem_left pieces hp
    exact piece.begins
  refine ⟨⟨opener, _, rfl, ?_⟩, .opening opening (filled_inside begins closing) ?_⟩
  · rcases opening with rfl | rfl <;> decide
  · exact laid_inside pieces closing

end Parts

section Values

variable {d : Nat}

theorem Piece.ordinary {t : List Char} (some : t ≠ []) (h : ∀ c ∈ t, Ordinary c) : Piece d t t := by
  obtain ⟨c, rest, rfl⟩ := List.exists_cons_of_ne_nil some
  obtain ⟨-, -, closing, spacing⟩ := h c List.mem_cons_self
  exact ⟨⟨c, rest, rfl, spacing, closing⟩, .ordinaries h⟩

theorem piece_member {k : String} {x : Json} (value : Piece d (x.chars true d) (x.chars false d)) :
    Piece d (memberChars true d (k, x)) (memberChars false d (k, x)) := by
  refine ⟨⟨'"', _, rfl, by decide, by decide⟩, (laid_document k).append ?_⟩
  exact .ordinary (by decide) (.space value.laid)

theorem piece_chars (j : Json) : Piece d (j.chars true d) (j.chars false d) := by
  induction j using parts_induction generalizing d with
  | null => exact .ordinary (t := "null".toList) (by decide) (ordinary_of_all (by decide))
  | bool b =>
    cases b with
    | false => exact .ordinary (t := "false".toList) (by decide) (ordinary_of_all (by decide))
    | true => exact .ordinary (t := "true".toList) (by decide) (ordinary_of_all (by decide))
  | num n =>
    obtain ⟨numeric, some⟩ := n.numeric_chars
    exact .ordinary some fun c hc => (numeric c hc).ordinary
  | str s => exact ⟨⟨'"', _, rfl, by decide, by decide⟩, laid_document s⟩
  | arr xs ih =>
    rw [chars_arr, chars_arr]
    refine piece_container ?_ (.inl rfl) (.inl rfl)
    exact List.forall₂_map_left_iff.mpr (List.forall₂_map_right_iff.mpr
      (List.forall₂_same.mpr fun x hx => ih x hx))
  | obj ms ih =>
    rw [chars_obj, chars_obj]
    refine piece_container ?_ (.inr rfl) (.inr rfl)
    exact List.forall₂_map_left_iff.mpr (List.forall₂_map_right_iff.mpr
      (List.forall₂_same.mpr fun m hm => piece_member (ih m hm)))

end Values

end Json

theorem takeWhile_spacing {space r : List Char} {c : Char} (spaces : ∀ b ∈ space, Spacing b)
    (visible : ¬ Spacing c) :
    (space ++ c :: r).takeWhile (fun b => decide (Spacing b)) = space := by
  rw [List.takeWhile_append_of_pos fun b hb => decide_eq_true (spaces b hb),
    List.takeWhile_cons_of_neg (by simpa using visible), List.append_nil]

theorem Filled.eq_nil {middle behind : List Char} {close : Char}
    (filled : Filled (middle ++ close :: behind)) (space : ∀ b ∈ middle, Spacing b)
    (closing : Closing close) : middle = [] := by
  obtain ⟨space', c, rest, same, spaces, visible, none⟩ := filled
  have plain : ¬ Spacing close := by rcases closing with rfl | rfl <;> decide
  have spacing : middle = space' := by
    have stop := takeWhile_spacing (r := behind) space plain
    rw [← stop, same, takeWhile_spacing spaces visible]
  subst spacing
  obtain ⟨rfl, -⟩ := List.cons.inj (List.append_cancel_left same)
  exact none closing

namespace Document

/-- The indented text without the spaces and line feeds outside of its string literals is the
compact text. Every line feed stands outside of them, in front of two spaces for each container that
the next character is in, and nothing stands in an empty container. -/
theorem toText_indented (j : Json) (sortKeys : Bool) :
    ∃ pretty compact : String,
      toText true sortKeys (.json j) = .json (.str pretty) ∧
      toText false sortKeys (.json j) = .json (.str compact) ∧
      Shape.format ⟨false, false, sortKeys⟩ (.json j) = .ok pretty ∧
      Shape.format ⟨false, true, sortKeys⟩ (.json j) = .ok compact ∧
      Place.outside.unspaced pretty.toList = compact.toList ∧
      (∀ front behind, pretty.toList = front ++ '\n' :: behind →
        (Scan.start.after front).place = .outside ∧
          ∃ (d : Nat) (c : Char) (rest : List Char),
            behind = List.replicate (2 * d) ' ' ++ c :: rest ∧ c ≠ ' ' ∧
            (Scan.start.after front).nesting = d + if Closing c then 1 else 0) ∧
      ∀ front middle behind opener close,
        pretty.toList = front ++ opener :: (middle ++ close :: behind) →
        (Scan.start.after front).place = .outside → Opening opener → Closing close →
        (∀ b ∈ middle, Spacing b) → middle = [] := by
  let written := if sortKeys then j.sortKeys else j
  obtain ⟨-, laid⟩ : Json.Piece 0 (written.chars true 0) (written.chars false 0) :=
    Json.piece_chars written
  refine ⟨String.ofList (written.chars true 0), String.ofList (written.chars false 0),
    rfl, rfl, rfl, rfl, ?_, ?_, ?_⟩
  all_goals rw [String.toList_ofList]
  · rw [String.toList_ofList]
    exact laid.unspaced_eq
  · intro front behind split
    exact (laid.fits split).line rfl
  · intro front middle behind opener close split place opening closing space
    exact ((laid.fits split).bracket place opening).eq_nil space closing

end Document

end JsonFilter
