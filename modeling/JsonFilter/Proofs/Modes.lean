import JsonFilter.Proofs.Request

namespace JsonFilter

variable {ω ε : Type}

/-- The results that a request starts to evaluate, if it gets that far. -/
def started? (eng : Engine ω ε) (json filter : String) (w : ω) : Option Results :=
  match eng.create w with
  | (none, _) => none
  | (some e, w) =>
    match eng.compile e filter w, Document.ofText json with
    | ((.ok (), e), w), .json j => some (eng.start e (.json j) w).1
    | _, _ => none

theorem filterWith_started (eng : Engine ω ε) (json filter : String) (t : Trace ω) :
    (∃ f, f.kind ≠ .runtime ∧ started? eng json filter t.world = none ∧
      ∀ options, (filterWith eng json filter options t).1 = .failed f) ∨
    ∃ rs, started? eng json filter t.world = some rs ∧
      ∀ options, (filterWith eng json filter options t).1 = .ofItems options rs.toList
        rs.interruption? := by
  simp only [filterWith_expected, Outcome.expected, started?]
  rcases eng.create t.world with ⟨_ | e, w⟩
  · exact .inl ⟨⟨.base, "Failed to initialize jq"⟩, by decide, rfl, fun _ => rfl⟩
  · dsimp only
    rcases eng.compile e filter w with ⟨⟨d | _, e⟩, w⟩
    · rcases d with j | _ | m
      · exact .inl ⟨⟨.compile, "Syntax error in jq filter"⟩, by simp, rfl, fun _ => rfl⟩
      · exact .inl ⟨⟨.compile, "Syntax error in jq filter"⟩, by simp, rfl, fun _ => rfl⟩
      · exact .inl ⟨⟨.compile, m⟩, by simp, rfl, fun _ => rfl⟩
    · cases Document.ofText json with
      | json j => exact .inr ⟨_, rfl, fun _ => rfl⟩
      | invalid m => exact .inl ⟨⟨.parse, m.getD "Invalid JSON input"⟩, by simp, rfl, fun _ => rfl⟩

namespace Outcome

/-- What an outcome for the first result has to do with the outcome for all results of the same
request. The items are those of the evaluation, if there was one. -/
structure Heads (shape : Shape) (items? : Option (List (Except String Json)))
    (single multiple : Outcome) : Prop where
  text : ∀ x xs, multiple = .output (.multiple (x :: xs)) → single = .output (.single x)
  empty : multiple = .output (.multiple []) → single = .output (.single "null")
  early : ∀ f, multiple = .failed f → f.kind ≠ .runtime → single = .failed f
  /-- Either no value precedes the error, or the first value is what the first item gives. -/
  late : ∀ f, multiple = .failed f → f.kind = .runtime → ∃ items, items? = some items ∧
    ((∃ later, items = .error f.message :: later ∧ single = .failed f) ∨
      ∃ j later x, items = .ok j :: later ∧ shape.format (.json j) = .ok x ∧
        single = .output (.single x))
  failed : ∀ f, single = .failed f → multiple = .failed f

theorem heads_early (shape : Shape) {f : Failure} (kind : f.kind ≠ .runtime) :
    Heads shape none (.failed f) (.failed f) where
  text := nofun
  empty := nofun
  early _ same _ := same
  late _ same runtime := by
    cases same
    exact absurd runtime kind
  failed _ same := same

variable (o : Options) (cut : Option Interruption)

theorem ofItems_multiple (items : List (Except String Json)) :
    ofItems { o with multipleOutputs := true } items cut =
      match Results.firstError? items, cut with
      | some m, _ => .failed ⟨.runtime, m⟩
      | none, some i => .interrupted i
      | none, none => .output (.multiple ((Results.values items).map o.shape.text)) := rfl

theorem ofItems_multiple_ok (j : Json) (later : List (Except String Json)) :
    let multiple := ofItems { o with multipleOutputs := true } (.ok j :: later) cut
    (∃ m, multiple = .failed ⟨.runtime, m⟩) ∨ (∃ i, multiple = .interrupted i) ∨
      ∃ xs, multiple = .output (.multiple (o.shape.text j :: xs)) := by
  dsimp only
  rw [ofItems_multiple, Results.firstError?_ok, Results.values_ok]
  cases Results.firstError? later with
  | some m => exact .inl ⟨m, rfl⟩
  | none =>
    cases cut with
    | some i => exact .inr (.inl ⟨i, rfl⟩)
    | none => exact .inr (.inr ⟨_, rfl⟩)

theorem heads_ok (j : Json) (later : List (Except String Json)) :
    Heads o.shape (some (.ok j :: later)) (.output (.single (o.shape.text j)))
      (ofItems { o with multipleOutputs := true } (.ok j :: later) cut) := by
  rcases ofItems_multiple_ok o cut j later with ⟨m, all⟩ | ⟨i, all⟩ | ⟨xs, all⟩
  · rw [all]
    refine ⟨nofun, nofun, ?_, ?_, nofun⟩
    · intro f same kind
      cases same
      exact absurd rfl kind
    · intro f same _
      have formatted : o.shape.format (.json j) = .ok (o.shape.text j) := rfl
      exact ⟨_, rfl, .inr ⟨j, later, _, rfl, formatted, rfl⟩⟩
  · rw [all]
    exact ⟨nofun, nofun, nofun, nofun, nofun⟩
  · rw [all]
    refine ⟨?_, nofun, nofun, nofun, nofun⟩
    intro x xs same
    cases same
    rfl

theorem heads_ofItems (items : List (Except String Json)) :
    Heads o.shape (some items) (ofItems { o with multipleOutputs := false } items cut)
      (ofItems { o with multipleOutputs := true } items cut) := by
  rcases items with _ | ⟨m | j, later⟩
  · cases cut with
    | some i =>
      show Heads _ _ (.interrupted i) (.interrupted i)
      exact ⟨nofun, nofun, nofun, nofun, nofun⟩
    | none =>
      show Heads _ _ (.output (.single "null")) (.output (.multiple []))
      exact ⟨nofun, fun _ => rfl, nofun, nofun, nofun⟩
  · show Heads _ _ (.failed ⟨.runtime, m⟩) (.failed ⟨.runtime, m⟩)
    refine ⟨nofun, nofun, fun _ same _ => same, ?_, fun _ same => same⟩
    intro f same _
    cases same
    exact ⟨_, rfl, .inl ⟨later, rfl, rfl⟩⟩
  · exact heads_ok o cut j later

end Outcome

/-- The outcome of a request for all results decides that of the request for the first one, but for
an evaluation that fails, where the first item decides. Pulling more results of an evaluation first
gives what pulling fewer of them gives. -/
theorem first_heads_all (eng : Engine ω ε) (json filter : String) (o : Options) (t : Trace ω) :
    Outcome.Heads o.shape ((started? eng json filter t.world).map Results.toList)
      (filterWith eng json filter { o with multipleOutputs := false } t).1
      (filterWith eng json filter { o with multipleOutputs := true } t).1 ∧
    ∀ (e : ε) (input : Document) (w : ω) (n m : Nat), n ≤ m →
      let evaluation := Stream.ofResults (eng.start e input w).1
      evaluation.pulls n <+: evaluation.pulls m := by
  refine ⟨?_, fun e input w n m fewer => Stream.pulls_prefix _ fewer⟩
  rcases filterWith_started eng json filter t with ⟨f, kind, none, all⟩ | ⟨rs, started, all⟩
  · rw [all, all, none]
    exact Outcome.heads_early o.shape kind
  · rw [all, all, started]
    exact Outcome.heads_ofItems o rs.interruption? rs.toList

end JsonFilter
