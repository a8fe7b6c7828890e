import JsonFilter.Engine.Interpreter
import JsonFilter.Proofs.Stream

namespace JsonFilter.Interpreter

/-- The source that was last accepted, behind one more step and its answer. -/
def latest (last : Option String) : Step × Answer → Option String
  | (.compile source, .compiled) => some source
  | _ => last

def lastCompiled? (history : List (Step × Answer)) : Option String := history.foldl latest none

def fresh : Option String → Interpreter
  | none => {}
  | some source => (({} : Interpreter).step (.compile source)).2

section

variable {source : String} {p : Filter.Program} {ds : List Filter.Diagnostic}

theorem compile_accepted (accepted : Filter.Program.compile source = .ok p) (i : Interpreter) :
    i.compile source = (.ok (), ⟨some p⟩) := by
  unfold compile
  rw [accepted]

theorem compile_refused (refused : Filter.Program.compile source = .error ds) (i : Interpreter) :
    i.compile source = (.error (.invalid (some (Filter.Diagnostic.joined ds))), i) := by
  unfold compile
  rw [refused]

theorem step_accepted (accepted : Filter.Program.compile source = .ok p) (i : Interpreter) :
    i.step (.compile source) = (.compiled, ⟨some p⟩) := by
  unfold step
  dsimp only
  rw [compile_accepted accepted]

theorem step_refused (refused : Filter.Program.compile source = .error ds) (i : Interpreter) :
    i.step (.compile source) = (.rejected (.invalid (some (Filter.Diagnostic.joined ds))), i) := by
  unfold step
  dsimp only
  rw [compile_refused refused]

theorem step_rejected {i : Interpreter} {d : Document}
    (rejected : (i.step (.compile source)).1 = .rejected d) :
    (i.step (.compile source)).2 = i := by
  cases compiled : Filter.Program.compile source with
  | ok p =>
    rw [step_accepted compiled] at rejected
    cases rejected
  | error ds => rw [step_refused compiled]

end

theorem step_fresh (last : Option String) (s : Step) :
    ((fresh last).step s).2 = fresh (latest last (s, ((fresh last).step s).1)) := by
  cases s with
  | start setting input n =>
    simp only [step]
    split <;> rfl
  | debug => rfl
  | compile source =>
    cases compiled : Filter.Program.compile source with
    | ok p =>
      have alone : fresh (some source) = ⟨some p⟩ := by
        rw [fresh, step_accepted compiled]
      rw [step_accepted compiled]
      exact alone.symm
    | error ds =>
      rw [step_refused compiled]
      rfl

theorem follow_fresh (last : Option String) (steps : List Step) :
    (fresh last).follow steps =
      fresh ((steps.zip ((fresh last).answers steps)).foldl latest last) := by
  -- `last` is all that is left of the steps before `steps`
  induction steps generalizing last with
  | nil => rfl
  | cons s steps ih =>
    have one := step_fresh last s
    have others := ih (latest last (s, ((fresh last).step s).1))
    rw [← one] at others
    exact others

theorem foldl_latest_of_never {history : List (Step × Answer)}
    (never : ∀ entry ∈ history, entry.2 ≠ .compiled) (last : Option String) :
    history.foldl latest last = last := by
  induction history with
  | nil => rfl
  | cons entry history ih =>
    have kept : latest last entry = last := by
      obtain ⟨s, a⟩ := entry
      have other : a ≠ .compiled := never (s, a) List.mem_cons_self
      cases s with
      | start | debug => rfl
      | compile source =>
        cases a with
        | compiled => exact absurd rfl other
        | rejected | evaluated | interrupted | summary => rfl
    rw [List.foldl_cons, kept]
    exact ih fun entry h => never entry (List.mem_cons_of_mem _ h)

theorem evaluated_marker {i : Interpreter} {setting : Filter.Setting} {input : Document}
    {m : Option String}
    (ends : Stream.ofResults (i.start setting input) = Stream.ended (.invalid m)) (n : Nat) :
    (i.step (.start setting input n)).1 =
      .evaluated ((Document.invalid m :: List.replicate n (Document.invalid none)).take n) 0
        (decide (0 < n)) := by
  obtain ⟨pulled, terminated⟩ := Stream.after_marker m n
  unfold step
  simp only [ends, Stream.uninterrupted_marker, Stream.pulls_marker, pulled, terminated]

/-- However an interpreter was used before, it answers like one that was only given the source it
last accepted. A source that is refused changes nothing, without a program every document is
answered with one error, and a marker is answered with itself. -/
theorem answers_like_fresh (before : List Step) :
    let i := follow {} before
    (∀ s, (i.step s).1 =
      ((fresh (lastCompiled? (before.zip (answers {} before)))).step s).1) ∧
    (∀ source d, (i.step (.compile source)).1 = .rejected d →
      (i.step (.compile source)).2 = i ∧ (i.step (.compile source)).2.summary = i.summary) ∧
    (.compiled ∉ answers {} before → ∀ setting j n,
      (i.step (.start setting (.json j) n)).1 =
      .evaluated ((Document.invalid (some "no program compiled") ::
        List.replicate n (Document.invalid none)).take n) 0 (decide (0 < n))) ∧
    ∀ setting m n, (i.step (.start setting (.invalid m) n)).1 =
      .evaluated ((Document.invalid m :: List.replicate n (Document.invalid none)).take n) 0
        (decide (0 < n)) := by
  intro i
  have history : i = fresh (lastCompiled? (before.zip (answers {} before))) :=
    follow_fresh none before
  refine ⟨fun s => congrArg (fun i => (i.step s).1) history, ?_, ?_, ?_⟩
  · intro source d rejected
    have same := step_rejected rejected
    exact ⟨same, congrArg summary same⟩
  · intro never setting j n
    have refused : ∀ entry ∈ before.zip (answers {} before), entry.2 ≠ .compiled :=
      fun entry h compiled => never (compiled ▸ (List.of_mem_zip h).2)
    have empty : i = {} := history.trans (congrArg fresh (foldl_latest_of_never refused none))
    rw [empty]
    exact evaluated_marker rfl n
  · intro setting m n
    have ends : Stream.ofResults (i.start setting (.invalid m)) = Stream.ended (.invalid m) := by
      cases m <;> rfl
    exact evaluated_marker ends n

example :
    let steps : List Step :=
      [.compile "1", .start .bare (.json .null) 0, .compile ".", .compile "(", .debug]
    lastCompiled? (steps.zip (answers {} steps)) = some "." := by rfl

end JsonFilter.Interpreter
