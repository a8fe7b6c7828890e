import JsonFilter.Filter.Token.Lexer
import JsonFilter.Proofs.Text.Blank
import Mathlib.Data.List.TakeDrop

namespace JsonFilter.Filter

open Blank (Trimmed trimmed_nil trimmed_trimStart)

def Wanted.inToken : Wanted → Bool
  | .digit | .identifier | .escape | .codePoint => true
  | _ => false

/-- A piece of a source that no blank begins. -/
def Piece (source cs : List Char) : Prop := cs <:+: source ∧ Trimmed cs

theorem piece_nil (source : List Char) : Piece source [] := ⟨List.nil_infix, trimmed_nil⟩

mutual

inductive Token.From (source : List Char) : Token → Prop
  | word {text : String} (here : Piece source text.toList) : Token.From source (.word text)
  | var {text : String} (here : Piece source text.toList) : Token.From source (.var text)
  | format {text : String} (here : Piece source text.toList) : Token.From source (.format text)
  | number {text : String} (here : Piece source text.toList) : Token.From source (.number text)
  | symbol {text : String} (here : Piece source text.toList) : Token.From source (.symbol text)
  | string {text : List Char} {parts : List TokenPart} (here : Piece source text)
      (inside : ∀ p ∈ parts, TokenPart.From source p) : Token.From source (.string text parts)
  | block {text : List Char} {opening : Char} {ts : List Token} (here : Piece source text)
      (inside : ∀ t ∈ ts, Token.From source t) : Token.From source (.block text opening ts)

inductive TokenPart.From (source : List Char) : TokenPart → Prop
  | text (s : String) : TokenPart.From source (.text s)
  | filter {text : List Char} {ts : List Token} (inside : ∀ t ∈ ts, Token.From source t) :
      TokenPart.From source (.filter text ts)

end

theorem Token.From.source {source : List Char} {t : Token} (h : t.From source) :
    Piece source t.source := by
  cases h <;> assumption

theorem Token.From.inside {source text : List Char} {opening : Char} {ts : List Token}
    (h : (Token.block text opening ts).From source) : ∀ t ∈ ts, t.From source := by
  cases h
  assumption

theorem Token.From.parts {source text : List Char} {ps : List TokenPart}
    (h : (Token.string text ps).From source) : ∀ p ∈ ps, p.From source := by
  cases h
  assumption

namespace Lexing

theorem skipComment_suffix (fuel : Nat) (cs : List Char) : skipComment fuel cs <:+ cs := by
  induction fuel generalizing cs with
  | zero => exact List.suffix_rfl
  | succ fuel ih =>
    have behind : (cs.dropWhile (· != '\n')).drop 1 <:+ cs :=
      (List.drop_suffix 1 _).trans (List.dropWhile_suffix _)
    rw [skipComment, List.span_eq_takeWhile_dropWhile]
    dsimp only
    split
    · exact (ih _).trans behind
    · exact behind

theorem skipSpace_suffix (fuel : Nat) (cs : List Char) : skipSpace fuel cs <:+ cs := by
  induction fuel generalizing cs with
  | zero => exact List.suffix_rfl
  | succ fuel ih =>
    have trimmed : Blank.trimStart cs <:+ cs := List.dropWhile_suffix _
    rw [skipSpace]
    split
    · rename_i rest opens
      rw [opens] at trimmed
      exact (ih _).trans
        ((skipComment_suffix _ rest).trans ((List.suffix_cons '#' rest).trans trimmed))
    · exact trimmed

theorem trimmed_skipSpace {fuel : Nat} {cs : List Char} (enough : cs.length < fuel) :
    Trimmed (skipSpace fuel cs) := by
  induction fuel generalizing cs with
  | zero => cases enough
  | succ fuel ih =>
    rw [skipSpace]
    split
    · rename_i rest opens
      have shorter : (skipComment (rest.length + 1) rest).length ≤ rest.length :=
        (skipComment_suffix _ rest).length_le
      have short : (Blank.trimStart cs).length ≤ cs.length := (List.dropWhile_suffix _).length_le
      rw [opens, List.length_cons] at short
      exact ih (by omega)
    · exact trimmed_trimStart cs

/-- The source that is left is the end of the whole one, and so is what every error shows. -/
structure Sound (source : List Char) (s : Lexing) : Prop where
  input : s.input <:+ source
  errors : ∀ e ∈ s.errors, e.rest <:+ source ∧ (e.wanted.inToken = false → Trimmed e.rest)

variable {source cs : List Char} {s : Lexing}

namespace Sound

theorem skip (h : Sound source s) (part : cs <:+ s.input) : Sound source ⟨cs, s.errors⟩ :=
  ⟨part.trans h.input, h.errors⟩

theorem skipOne {c : Char} (h : Sound source s) (begins : s.input = c :: cs) :
    Sound source ⟨cs, s.errors⟩ :=
  h.skip (begins ▸ List.suffix_cons c cs)

theorem fail {wanted : Wanted} (h : Sound source s)
    (place : wanted.inToken = false → Trimmed s.input) : Sound source (s.fail wanted) where
  input := h.input
  errors := List.forall_mem_cons.mpr ⟨⟨h.input, place⟩, h.errors⟩

theorem space (h : Sound source s) : Sound source s.space := h.skip (skipSpace_suffix _ _)

theorem digits (h : Sound source s) : Sound source s.digits := by
  unfold Lexing.digits
  split
  · split
    · rename_i begins _
      exact (h.skipOne begins).skip (List.dropWhile_suffix _)
    · exact h.fail nofun
  · exact h.fail nofun

theorem nameRest (h : Sound source s) : Sound source s.nameRest := h.skip (List.dropWhile_suffix _)

theorem name (h : Sound source s) : Sound source s.name := by
  unfold Lexing.name
  split
  · split
    · exact h.nameRest
    · exact h.fail nofun
  · exact h.fail nofun

theorem number (h : Sound source s) : Sound source s.number := by
  have whole := h.skip (List.dropWhile_suffix Char.isDigit)
  unfold Lexing.number
  extract_lets digited fraction
  have fractional : Sound source fraction := by
    unfold fraction
    split
    · exact (whole.skipOne ‹_›).digits
    · exact whole
  split
  case h_7 => exact fractional
  case h_5 begins | h_6 begins => exact (fractional.skipOne begins).digits
  all_goals exact ((fractional.skipOne ‹_›).skipOne rfl).digits

theorem qualified (h : Sound source s) : Sound source s.qualified := by
  have first := h.nameRest
  unfold Lexing.qualified
  dsimp only
  split
  · exact (((first.skipOne ‹_›).skipOne rfl).skipOne rfl).name
  · exact (((first.skipOne ‹_›).skipOne rfl).skipOne rfl).name
  · exact ((first.skipOne ‹_›).skipOne rfl).name
  · exact first

end Sound

theorem hexDigits_suffix (k n : Nat) (cs : List Char) : (hexDigits k n cs).2.2 <:+ cs := by
  induction k generalizing n cs with
  | zero => exact List.suffix_rfl
  | succ k ih =>
    cases cs with
    | nil => exact List.suffix_rfl
    | cons c cs =>
      rw [hexDigits]
      split
      · exact (ih _ cs).trans (List.suffix_cons c cs)
      · exact List.suffix_rfl

theorem Sound.codePoint (h : Sound source s) : Sound source s.codePoint.2 := by
  have rest := h.skip (hexDigits_suffix 4 0 s.input)
  unfold Lexing.codePoint
  dsimp only
  split
  · exact rest.fail nofun
  · split
    · exact rest
    · exact h.fail nofun

theorem Sound.escaped (h : Sound source s) : Sound source s.escaped.2 := by
  unfold Lexing.escaped
  dsimp only
  split
  case h_9 _ begins => exact (h.skipOne begins).codePoint
  case h_10 => exact h.fail nofun
  all_goals exact h.skipOne ‹_›

theorem piece_front {front : List Char} (h : Sound source s) (trimmed : Trimmed s.input)
    (part : front <+: s.input) : Piece source front :=
  ⟨part.isInfix.trans h.input.isInfix, trimmed.ofPrefix part⟩

theorem piece_consumed (h : Sound source s) (trimmed : Trimmed s.input) (t : Lexing) :
    Piece source (consumed s.input t) := piece_front h trimmed (List.take_prefix _ _)

theorem piece_consumedText (h : Sound source s) (trimmed : Trimmed s.input) (t : Lexing) :
    Piece source (consumedText s.input t).toList := by
  rw [consumedText, String.toList_ofList]
  exact piece_consumed h trimmed t

theorem piece_one {c : Char} (h : Sound source s) (trimmed : Trimmed s.input)
    (begins : s.input = c :: cs) : Piece source (String.ofList [c]).toList := by
  rw [String.toList_ofList]
  exact piece_front h trimmed ⟨cs, begins.symm⟩

structure Lexed {α : Type} (Q : α → Prop) (source : List Char) (r : List α × Lexing) : Prop where
  read : ∀ x ∈ r.1, Q x
  rest : Sound source r.2

/-- What lexing with some fuel does from a sound state. -/
structure Careful (source : List Char) (fuel : Nat) : Prop where
  tokens {s : Lexing} (acc : List Token) (h : Sound source s)
    (before : ∀ t ∈ acc, t.From source) :
    Lexed (Token.From source) source (tokens fuel s acc)
  token {s : Lexing} (h : Sound source s) (trimmed : Trimmed s.input) :
    Lexed (Token.From source) source ((token fuel s).1.toList, (token fuel s).2)
  block {s : Lexing} (opening : Char) (h : Sound source s) :
    Lexed (Token.From source) source (block fuel opening s)
  stringParts {s : Lexing} (run : List Char) (acc : List TokenPart) (h : Sound source s)
    (before : ∀ p ∈ acc, p.From source) :
    Lexed (TokenPart.From source) source (stringParts fuel s run acc)

variable {fuel : Nat}

theorem lexed_tokens (ih : Careful source fuel) (acc : List Token) (h : Sound source s)
    (before : ∀ t ∈ acc, t.From source) :
    Lexed (Token.From source) source (tokens (fuel + 1) s acc) := by
  have one := ih.token h.space (trimmed_skipSpace (Nat.lt_succ_self _))
  rw [Lexing.tokens]
  rcases found : Lexing.token fuel s.space with ⟨_ | t, rest⟩
  · rw [found] at one
    exact ⟨fun u member => before u (List.mem_reverse.mp member), one.rest⟩
  · rw [found] at one
    exact ih.tokens _ one.rest (List.forall_mem_cons.mpr ⟨one.read t List.mem_cons_self, before⟩)

theorem lexed_block (ih : Careful source fuel) (opening : Char) (h : Sound source s) :
    Lexed (Token.From source) source (block (fuel + 1) opening s) := by
  obtain ⟨ts, rest⟩ := ih.tokens [] h nofun
  have trimmed : Trimmed (Lexing.tokens fuel s []).2.space.input :=
    trimmed_skipSpace (Nat.lt_succ_self _)
  rw [Lexing.block]
  dsimp only
  split
  · rename_i c cs begins
    split
    · refine ⟨List.forall_mem_append.mpr ⟨ts, List.forall_mem_singleton.mpr (.symbol ?_)⟩, ?_⟩
      · exact piece_one rest.space trimmed begins
      · exact rest.space.skipOne begins
    · exact ⟨ts, rest.space.fail fun _ => trimmed⟩
  · exact ⟨ts, rest.space.fail fun _ => trimmed⟩

theorem lexed_stringParts (ih : Careful source fuel) (run : List Char) (acc : List TokenPart)
    (h : Sound source s) (before : ∀ p ∈ acc, p.From source) :
    Lexed (TokenPart.From source) source (stringParts (fuel + 1) s run acc) := by
  have flushed : ∀ p ∈ if run.isEmpty then acc else .text (String.ofList run.reverse) :: acc,
      TokenPart.From source p := by
    split
    · exact before
    · exact List.forall_mem_cons.mpr ⟨.text _, before⟩
  rw [Lexing.stringParts]
  split
  case h_1 ends =>
    exact ⟨fun p member => flushed p (List.mem_reverse.mp member), h.fail fun _ => ends ▸ trimmed_nil⟩
  case h_2 begins =>
    exact ⟨fun p member => flushed p (List.mem_reverse.mp member), h.skipOne begins⟩
  case h_3 cs begins =>
    obtain ⟨ts, rest⟩ := ih.block '(' ((h.skipOne begins).skipOne rfl)
    exact ih.stringParts [] _ rest (List.forall_mem_cons.mpr ⟨.filter ts, flushed⟩)
  case h_4 cs _ begins =>
    have rest := (h.skipOne begins).escaped
    split
    all_goals
      rename_i escape
      rw [escape] at rest
      exact ih.stringParts _ _ rest before
  case h_5 begins => exact ih.stringParts _ _ (h.skipOne begins) before

theorem lexed_some {t : Token} (here : t.From source) (rest : Sound source s) :
    Lexed (Token.From source) source ((some t).toList, s) :=
  ⟨List.forall_mem_singleton.mpr here, rest⟩

theorem lexed_none (rest : Sound source s) :
    Lexed (Token.From source) source ((none : Option Token).toList, s) := ⟨nofun, rest⟩

theorem lexed_token (ih : Careful source fuel) (h : Sound source s) (trimmed : Trimmed s.input) :
    Lexed (Token.From source) source
      ((token (fuel + 1) s).1.toList, (token (fuel + 1) s).2) := by
  -- whatever is consumed is a front part of the input, which stands at the end of the source
  have text := piece_consumedText h trimmed
  have span := piece_consumed h trimmed
  rw [Lexing.token]
  split
  case h_1 => exact lexed_none h
  case h_2 cs begins =>
    exact lexed_some (.symbol (piece_front h trimmed ⟨cs, begins.symm⟩))
      ((h.skipOne begins).skipOne rfl)
  case h_3 begins =>
    refine lexed_some (.symbol (text _)) ?_
    split
    · exact (h.skipOne begins).nameRest
    · exact h.skipOne begins
  case h_4 begins => exact lexed_some (.var (text _)) (h.skipOne begins).name
  case h_5 begins => exact lexed_some (.format (text _)) (h.skipOne begins).name
  case h_6 begins =>
    have inner := ih.stringParts [] [] (h.skipOne begins) nofun
    exact lexed_some (.string (span _) inner.read) inner.rest
  case h_7 c cs _ _ _ _ _ begins =>
    have rest := h.skipOne begins
    split
    · have inner := ih.block c rest
      exact lexed_some (.block (span _) inner.read) inner.rest
    · split
      · exact lexed_some (.word (text _)) h.qualified
      · split
        · exact lexed_some (.number (text _)) h.number
        · split
          · exact lexed_some (.symbol (text _)) (rest.skip (List.dropWhile_suffix _))
          · split
            · exact lexed_some (.symbol (piece_one h trimmed begins)) rest
            · exact lexed_none h

theorem careful (source : List Char) (fuel : Nat) : Careful source fuel := by
  induction fuel with
  | zero =>
    exact {
      tokens _ h before := ⟨fun t member => before t (List.mem_reverse.mp member), h⟩
      token h _ := lexed_none h
      block _ h := ⟨nofun, h⟩
      stringParts _ _ h before := ⟨fun p member => before p (List.mem_reverse.mp member), h⟩ }
  | succ fuel ih =>
    exact {
      tokens := lexed_tokens ih
      token := lexed_token ih
      block := lexed_block ih
      stringParts := lexed_stringParts ih }

end Lexing

theorem lex_ends (source : List Char) : ∃ r, Lexing.Lexed (Token.From source) source r ∧
    lex source = if r.2.errors.isEmpty then .ok r.1 else .error r.2.errors.reverse := by
  have start : Lexing.Sound source ⟨source, []⟩ := ⟨List.suffix_rfl, nofun⟩
  have all := (Lexing.careful source (4 * source.length + 4)).tokens [] start nofun
  rcases ended : Lexing.tokens (4 * source.length + 4) ⟨source, []⟩ [] with ⟨ts, s⟩
  rw [ended] at all
  refine ⟨(ts, if s.space.input.isEmpty then s.space else s.space.fail .token), ⟨all.read, ?_⟩, ?_⟩
  · dsimp only
    split
    · exact all.rest.space
    · exact all.rest.space.fail fun _ => Lexing.trimmed_skipSpace (Nat.lt_succ_self _)
  · rw [lex, ended]

theorem lex_from {source : List Char} {ts : List Token} (lexed : lex source = .ok ts) :
    ∀ t ∈ ts, t.From source := by
  obtain ⟨r, all, same⟩ := lex_ends source
  rw [same] at lexed
  split at lexed <;> cases lexed
  exact all.read

theorem lex_refused {source : List Char} {es : List SyntaxError} (refused : lex source = .error es) :
    es ≠ [] ∧ ∀ e ∈ es, e.rest <:+ source ∧ (e.wanted.inToken = false → Trimmed e.rest) := by
  obtain ⟨r, all, same⟩ := lex_ends source
  rw [same] at refused
  split at refused <;> cases refused
  rename_i some
  refine ⟨fun none => some ?_, fun e member => all.rest.errors e (List.mem_reverse.mp member)⟩
  rw [List.reverse_eq_nil_iff.mp none]
  rfl

end JsonFilter.Filter
