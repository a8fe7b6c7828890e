import JsonFilter.Engine.Script
import JsonFilter.Proofs.Request

namespace JsonFilter.Script

def counts (t : Trace World) : Counts := t.world.counts

def fresh (script : Script) : Trace World := ⟨⟨script, {}⟩, []⟩

theorem create_refused {t : Trace World} (refuses : t.world.script.failCreate = true) :
    Session.create engine t =
      (.error ⟨.base, Failure.noEngine⟩, ⟨⟨{}, counts t⟩, t.events ++ [.engineRefused]⟩) := by
  simp only [Session.create, engine, refuses, if_true]
  rfl

theorem create_granted {t : Trace World} (grants : t.world.script.failCreate = false) :
    Session.create engine t =
      (.ok ⟨⟨t.world.script.compileError, t.world.script.results⟩, .created⟩,
        ⟨⟨{}, { counts t with created := (counts t).created + 1 }⟩,
          t.events ++ [.engineCreated]⟩) := by
  simp only [Session.create, engine, grants, Bool.false_eq_true, if_false]
  rfl

theorem counts_compile (s : Session Actor) (filter : String) (t : Trace World) :
    counts (s.compile engine filter t).2 =
      { counts t with compiled := (counts t).compiled + 1 } := by
  simp only [Session.compile, engine]
  cases s.engine.compileError <;> rfl

theorem compile_accepted {s : Session Actor} (accepts : s.engine.compileError = none)
    (filter : String) (t : Trace World) :
    (s.compile engine filter t).1 = (.ok (), ⟨s.engine, .compiled⟩) := by
  simp only [Session.compile, engine, accepts]

theorem compile_rejected {s : Session Actor} {d : Document}
    (rejects : s.engine.compileError = some d) (filter : String) (t : Trace World) :
    (s.compile engine filter t).1 =
      (.error (Failure.ofDiagnostic d), ⟨{ s.engine with compileError := none }, .failed⟩) := by
  simp only [Session.compile, engine, rejects]

@[simp] theorem counts_teardown (s : Session Actor) (t : Trace World) :
    counts (s.teardown engine t) = { counts t with released := (counts t).released + 1 } := rfl

theorem evaluate_ofList (options : Options) (items : List (Except String Json)) :
    ∃ r, (Session.evaluate options (.ofList items)).value = .ok r := by
  unfold Session.evaluate
  cases options.multipleOutputs with
  | true =>
    simp only [if_true, Stream.collect_value, Results.drained, Results.interruption?_ofList]
    cases Results.firstError? (Results.ofList items).toList with
    | some m => exact ⟨_, rfl⟩
    | none => exact ⟨_, rfl⟩
  | false =>
    simp only [Bool.false_eq_true, if_false, Stream.first_value, Results.interruption?_ofList,
      Results.toList_ofList]
    rcases items with _ | ⟨m | j, items⟩
    · exact ⟨_, rfl⟩
    · exact ⟨_, rfl⟩
    · exact ⟨_, rfl⟩

theorem counts_run (s : Session Actor) (json : String) (options : Options) (t : Trace World) :
    counts (s.run engine json options t).2 =
      { counts t with
        started := (counts t).started + if (Document.ofText json).isValid then 1 else 0
        released := (counts t).released + 1 } := by
  unfold Session.run
  cases Document.ofText json with
  | invalid m => rfl
  | json j =>
    obtain ⟨r, ends⟩ := evaluate_ofList options s.engine.results
    simp only [engine, ends]
    cases r <;> rfl

def granted (script : Script) : Nat := if script.failCreate then 0 else 1

def evaluates (script : Script) (json : String) : Bool :=
  !script.failCreate && script.compileError.isNone && (Document.ofText json).isValid

theorem counts_filterWith (json filter : String) (options : Options) (t : Trace World) :
    counts (filterWith engine json filter options t).2 =
      { created := (counts t).created + t.world.script.granted
        compiled := (counts t).compiled + t.world.script.granted
        started := (counts t).started + if t.world.script.evaluates json then 1 else 0
        released := (counts t).released + t.world.script.granted } := by
  unfold filterWith granted evaluates
  cases created : t.world.script.failCreate with
  | true =>
    rw [create_refused created]
    rfl
  | false =>
    rw [create_granted created]
    cases diagnostic : t.world.script.compileError with
    | some d => rfl
    | none =>
      refine (counts_run _ json options _).trans ?_
      rfl

theorem counts_validateWith (filter : String) (t : Trace World) :
    counts (validateWith engine filter t).2 =
      { created := (counts t).created + t.world.script.granted
        compiled := (counts t).compiled + t.world.script.granted
        started := (counts t).started
        released := (counts t).released + t.world.script.granted } := by
  unfold validateWith granted
  cases created : t.world.script.failCreate with
  | true =>
    rw [create_refused created]
    rfl
  | false =>
    rw [create_granted created]
    simp only [counts_teardown, counts_compile]
    rfl

end JsonFilter.Script
