import JsonFilter.Request
import JsonFilter.Proofs.Stream

namespace JsonFilter

variable {ω ε : Type}

namespace Outcome

def ofItems (options : Options) (items : List (Except String Json)) (cut : Option Interruption) :
    Outcome :=
  if options.multipleOutputs then
    match Results.firstError? items, cut with
    | some m, _ => .failed ⟨.runtime, m⟩
    | none, some i => .interrupted i
    | none, none => .output (.multiple ((Results.values items).map options.shape.text))
  else
    match items, cut with
    | .error m :: _, _ => .failed ⟨.runtime, m⟩
    | .ok j :: _, _ => .output (.single (options.shape.text j))
    | [], some i => .interrupted i
    | [], none => .output (.single "null")

/-- What a request is to come to when its engine is created in the world `w`. -/
def expected (eng : Engine ω ε) (json filter : String) (options : Options) (w : ω) : Outcome :=
  match eng.create w with
  | (none, _) => .failed ⟨.base, "Failed to initialize jq"⟩
  | (some e, w) =>
    match eng.compile e filter w, Document.ofText json with
    | ((.error (.invalid (some m)), _), _), _ => .failed ⟨.compile, m⟩
    | ((.error _, _), _), _ => .failed ⟨.compile, "Syntax error in jq filter"⟩
    | ((.ok (), _), _), .invalid m => .failed ⟨.parse, m.getD "Invalid JSON input"⟩
    | ((.ok (), e), w), .json j =>
      let rs := (eng.start e (.json j) w).1
      ofItems options rs.toList rs.interruption?

def ofDrained : Except Interruption (Except Failure Output) → Outcome
  | .error i => .interrupted i
  | .ok (.ok o) => .output o
  | .ok (.error f) => .failed f

end Outcome

namespace Session

theorem evaluate_outcome (options : Options) (rs : Results) :
    Outcome.ofDrained (evaluate options rs).value =
      Outcome.ofItems options rs.toList rs.interruption? := by
  unfold evaluate Outcome.ofItems
  cases options.multipleOutputs with
  | true =>
    simp only [if_true, Stream.collect_value, Results.drained]
    cases Results.firstError? rs.toList with
    | some m => rfl
    | none => cases rs.interruption? <;> rfl
  | false =>
    simp only [Bool.false_eq_true, if_false, Stream.first_value]
    rcases rs.toList with _ | ⟨m | j, items⟩
    · cases rs.interruption? <;> rfl
    · rfl
    · rfl

theorem run_parsed (eng : Engine ω ε) (s : Session ε) {json : String} {j : Json} (options : Options)
    (t : Trace ω) (parsed : Document.ofText json = .json j) :
    (s.run eng json options t).1 =
      let rs := (eng.start s.engine (.json j) t.world).1
      Outcome.ofItems options rs.toList rs.interruption? := by
  simp only [← evaluate_outcome, run, parsed]
  rcases (evaluate options _).value with i | f | o <;> rfl

theorem run_unparsed (eng : Engine ω ε) (s : Session ε) {json m : String} (options : Options)
    (t : Trace ω) (rejected : Document.ofText json = .invalid (some m)) :
    (s.run eng json options t).1 = .failed ⟨.parse, m⟩ := by
  simp only [run, rejected]
  rfl

end Session

theorem Document.ofText_cases (text : String) :
    (∃ j, ofText text = .json j) ∨ ∃ m, ofText text = .invalid (some m) := by
  unfold ofText
  cases Json.ofText text with
  | ok j => exact .inl ⟨j, rfl⟩
  | error f => exact .inr ⟨_, rfl⟩

theorem Document.ofText_ne_ended (text : String) : ofText text ≠ .invalid none := by
  intro ended
  rcases ofText_cases text with ⟨j, parsed⟩ | ⟨m, rejected⟩
  · rw [parsed] at ended
    cases ended
  · rw [rejected] at ended
    cases ended

theorem filterWith_expected (eng : Engine ω ε) (json filter : String) (options : Options)
    (t : Trace ω) :
    (filterWith eng json filter options t).1 = Outcome.expected eng json filter options t.world := by
  unfold filterWith Session.create Outcome.expected
  rcases eng.create t.world with ⟨_ | e, w⟩
  · rfl
  · simp only [Session.compile, Trace.log]
    rcases eng.compile e filter w with ⟨⟨d | _, e⟩, w⟩
    · rcases d with j | _ | m <;> rfl
    · rcases Document.ofText_cases json with ⟨j, parsed⟩ | ⟨m, rejected⟩
      · simp only [parsed, Session.run_parsed eng _ options _ parsed]
      · simp only [rejected, Session.run_unparsed eng _ options _ rejected, Option.getD_some]

/-- A request comes to what its stages and the list of its items say, and a text that is no document
is always refused with a message. -/
theorem filterWith_outcome (eng : Engine ω ε) (json filter : String) (options : Options)
    (t : Trace ω) :
    (filterWith eng json filter options t).1 = Outcome.expected eng json filter options t.world ∧
      Document.ofText json ≠ .invalid none :=
  ⟨filterWith_expected eng json filter options t, Document.ofText_ne_ended json⟩

end JsonFilter
