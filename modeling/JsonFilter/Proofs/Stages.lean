import JsonFilter.Proofs.Document
import JsonFilter.Proofs.Patience

namespace JsonFilter

namespace Failure

def Elsewhere (m : String) : Prop := ∃ c, m.toList.head? = some c ∧ c ≠ 'F'

theorem Elsewhere.ofList {c : Char} (cs : List Char) (other : c ≠ 'F') :
    Elsewhere (String.ofList (c :: cs)) :=
  ⟨c, by rw [String.toList_ofList, List.head?_cons], other⟩

theorem Elsewhere.append {front : String} (h : Elsewhere front) (rest : String) :
    Elsewhere (front ++ rest) := by
  obtain ⟨c, head, other⟩ := h
  refine ⟨c, ?_, other⟩
  rw [String.toList_append, List.head?_append, head, Option.some_or]

theorem Elsewhere.ne {m : String} (h : Elsewhere m) : m ≠ unprintable := by
  rintro rfl
  obtain ⟨c, head, other⟩ := h
  have first : unprintable.toList.head? = some 'F' := by decide
  rw [first] at head
  exact other (Option.some.inj head).symm

end Failure

open Failure (Elsewhere)

namespace Filter

theorem SyntaxError.message_elsewhere (e : SyntaxError) : Elsewhere e.message :=
  have front : Elsewhere "syntax error: expected " := .ofList _ (by decide)
  ((front.append _).append _).append _

theorem Undefined.message_elsewhere (u : Undefined) : Elsewhere u.message := by
  cases u with
  | filter n k =>
    have front : Elsewhere "undefined filter " := .ofList _ (by decide)
    exact ((front.append n).append "/").append (toString k)
  | var n =>
    have front : Elsewhere "undefined variable " := .ofList _ (by decide)
    exact front.append n
  | label n =>
    have front : Elsewhere "undefined label " := .ofList _ (by decide)
    exact front.append n
  | module n =>
    have front : Elsewhere "undefined module " := .ofList _ (by decide)
    exact front.append n

theorem Diagnostic.message_elsewhere (d : Diagnostic) : Elsewhere d.message := by
  cases d with
  | spelling e => exact e.message_elsewhere
  | unavailable path =>
    have front : Elsewhere "cannot load module " := .ofList _ (by decide)
    exact (front.append path).append ": module loading not supported"
  | undefined u => exact u.message_elsewhere

theorem Diagnostic.joined_ne (ds : List Diagnostic) : joined ds ≠ Failure.unprintable := by
  rcases ds with _ | ⟨d, _ | ⟨d', ds⟩⟩
  · decide
  · have one : joined [d] = d.message := String.intercalate_singleton
    rw [one]
    exact d.message_elsewhere.ne
  · have many : joined (d :: d' :: ds) = d.message ++ "; " ++ joined (d' :: ds) :=
      String.intercalate_cons_cons
    rw [many]
    exact ((d.message_elsewhere.append _).append _).ne

end Filter

theorem Json.Cause.text_elsewhere (c : Cause) : Elsewhere c.text := by
  cases c <;> exact .ofList _ (by decide)

theorem Document.message_ne {text m : String} (rejected : ofText text = .invalid (some m)) :
    m ≠ Failure.unprintable := by
  unfold ofText at rejected
  cases read : Json.ofText text with
  | ok j =>
    rw [read] at rejected
    cases rejected
  | error f =>
    rw [read] at rejected
    cases rejected
    obtain ⟨rest, said⟩ := rejection_eq text.toList f
    rw [said]
    exact (f.cause.text_elsewhere.append rest).ne

theorem Outcome.ofItems_cases (o : Options) (items : List (Except String Json))
    (cut : Option Interruption) :
    (∃ out, ofItems o items cut = .output out) ∨
      (∃ m, ofItems o items cut = .failed ⟨.runtime, m⟩ ∧ Results.firstError? items = some m) ∨
      ∃ i, ofItems o items cut = .interrupted i ∧ cut = some i := by
  unfold ofItems
  cases o.multipleOutputs with
  | true =>
    cases Results.firstError? items with
    | some m => exact .inr (.inl ⟨m, rfl, rfl⟩)
    | none =>
      cases cut with
      | some i => exact .inr (.inr ⟨i, rfl, rfl⟩)
      | none => exact .inl ⟨_, rfl⟩
  | false =>
    rcases items with _ | ⟨m | j, later⟩
    · cases cut with
      | some i => exact .inr (.inr ⟨i, rfl, rfl⟩)
      | none => exact .inl ⟨_, rfl⟩
    · exact .inr (.inl ⟨m, rfl, rfl⟩)
    · exact .inl ⟨_, rfl⟩

/-- What the outcome of a request has to do with its filter checked alone, with its input text, and
with the results that it starts to evaluate, if it gets that far. -/
structure Outcome.Staged (text : String) (checked : Except Failure Unit) (rs? : Option Results)
    (outcome : Outcome) : Prop where
  refused : ∀ f, checked = .error f → f.kind = .compile
  compile : ∀ m, outcome = .failed ⟨.compile, m⟩ ↔ checked = .error ⟨.compile, m⟩
  unread : Document.ofText text ≠ .invalid none
  parse : ∀ m, outcome = .failed ⟨.parse, m⟩ ↔
    checked = .ok () ∧ Document.ofText text = .invalid (some m)
  base : ∀ m, outcome ≠ .failed ⟨.base, m⟩
  evaluated : ∀ j, checked = .ok () → Document.ofText text = .json j →
    (∃ out, outcome = .output out) ∨ (∃ m, outcome = .failed ⟨.runtime, m⟩) ∨
      (∃ e, outcome = .interrupted (.exit e) ∧
        rs?.bind Results.interruption? = some (.exit e)) ∨
      outcome = .interrupted .unfinished ∧ rs?.bind Results.interruption? = some .unfinished
  printed : ∀ kind, outcome = .failed ⟨kind, "Failed to convert result to JSON"⟩ →
    rs?.bind (fun rs => Results.firstError? rs.toList) = some "Failed to convert result to JSON"

namespace Outcome

variable {text : String}

theorem staged_refused {m : String} (rs? : Option Results)
    (said : Document.ofText text ≠ .invalid none)
    (other : m ≠ Failure.unprintable) :
    Staged text (.error ⟨.compile, m⟩) rs? (.failed ⟨.compile, m⟩) where
  refused f same := by
    cases same
    rfl
  compile m' := ⟨fun same => by cases same; rfl, fun same => by cases same; rfl⟩
  unread := said
  parse m' := ⟨nofun, nofun⟩
  base := nofun
  evaluated := nofun
  printed kind same := by
    cases same
    exact absurd rfl other

theorem staged_unread {m : String} (rs? : Option Results)
    (rejected : Document.ofText text = .invalid (some m)) :
    Staged text (.ok ()) rs? (.failed ⟨.parse, m⟩) where
  refused := nofun
  compile m' := ⟨nofun, nofun⟩
  unread := by
    rw [rejected]
    nofun
  parse m' := by
    rw [rejected]
    exact ⟨fun same => by cases same; exact ⟨rfl, rfl⟩, fun ⟨_, same⟩ => by cases same; rfl⟩
  base := nofun
  evaluated j _ parsed := by
    rw [rejected] at parsed
    cases parsed
  printed kind same := by
    cases same
    exact absurd rfl (Document.message_ne rejected)

theorem staged_evaluated {j : Json} (parsed : Document.ofText text = .json j) (o : Options)
    (rs : Results) :
    Staged text (.ok ()) (some rs) (ofItems o rs.toList rs.interruption?) := by
  have came := ofItems_cases o rs.toList rs.interruption?
  have failed : ∀ f, ofItems o rs.toList rs.interruption? = .failed f →
      f.kind = .runtime ∧ Results.firstError? rs.toList = some f.message := by
    intro f same
    rcases came with ⟨out, came⟩ | ⟨m, came, first⟩ | ⟨i, came, -⟩
    · cases came.symm.trans same
    · cases came.symm.trans same
      exact ⟨rfl, first⟩
    · cases came.symm.trans same
  have other {kind : Failure.Kind} (early : kind ≠ .runtime) (m : String) :
      ofItems o rs.toList rs.interruption? ≠ .failed ⟨kind, m⟩ := fun same => early (failed _ same).1
  refine ⟨nofun, fun m => ⟨fun same => (other (by decide) m same).elim, nofun⟩, ?_, fun m => ?_,
    other (by decide), fun _ _ _ => ?_, fun _ same => (failed _ same).2⟩
  · rw [parsed]
    nofun
  · rw [parsed]
    exact ⟨fun same => (other (by decide) m same).elim, nofun⟩
  · rcases came with output | ⟨m, came, -⟩ | ⟨e | _, came, cut⟩
    · exact .inl output
    · exact .inr (.inl ⟨m, came⟩)
    · exact .inr (.inr (.inl ⟨e, came, cut⟩))
    · exact .inr (.inr (.inr ⟨came, cut⟩))

end Outcome

end JsonFilter
