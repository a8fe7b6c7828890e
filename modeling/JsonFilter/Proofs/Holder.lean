import JsonFilter.Holder
import JsonFilter.Proofs.Engine.Script

namespace JsonFilter.Holder

section Steps

variable {ω ε : Type} (eng : Engine ω ε)

/-- A session takes a program while it is fresh, and is run with the program it took. -/
def Allows (h : Holder ω ε) : Step → Prop
  | .compile _ => ∀ s ∈ h.held, s.state = .created
  | .run _ options => ∀ o, Options.ofJson options = .ok o → ∀ s ∈ h.held, s.state = .compiled
  | .create | .drop | .debug => True

def follow : Holder ω ε → List Step → Holder ω ε
  | h, [] => h
  | h, step :: steps => follow (h.step eng step).2 steps

def AllowsAll : Holder ω ε → List Step → Prop
  | _, [] => True
  | h, step :: steps => h.Allows step ∧ AllowsAll (h.step eng step).2 steps

def Answer.Refuses : Answer → Prop
  | .noSession | .rejected _ => True
  | .done | .failed _ | .outcome _ | .summary _ => False

theorem step_refused (h : Holder ω ε) (step : Step) :
    (h.step eng step).1.Refuses → (h.step eng step).2 = h := by
  cases step with
  | create =>
    simp only [Holder.step]
    rcases Session.create eng (h.release eng) with ⟨f | s, t⟩
    · intro refuses
      cases refuses
    · intro refuses
      cases refuses
  | compile filter =>
    rcases h with ⟨_ | s, t⟩
    · exact fun _ => rfl
    · simp only [Holder.step]
      rcases s.compile eng filter t with ⟨⟨f | _, s⟩, t⟩
      · intro refuses
        cases refuses
      · intro refuses
        cases refuses
  | run json options =>
    rcases h with ⟨_ | s, t⟩
    · exact fun _ => rfl
    · simp only [Holder.step]
      cases Options.ofJson options with
      | error m => exact fun _ => rfl
      | ok o =>
        intro refuses
        cases refuses
  | drop =>
    rcases h with ⟨_ | s, t⟩
    · exact fun _ => rfl
    · intro refuses
      cases refuses
  | debug =>
    rcases h with ⟨_ | s, t⟩
    · exact fun _ => rfl
    · exact fun _ => rfl

end Steps

open Script (Counts World Actor counts)

/-- What is counted while nothing or a session in some state is held. A fresh session is one that
was not compiled yet, a compiled one was not started yet. -/
def Accounted (c : Counts) : Option State → Prop
  | none => c.created = c.released ∧ c.compiled ≤ c.created ∧ c.started ≤ c.compiled
  | some .created => c.created = c.released + 1 ∧ c.compiled < c.created ∧ c.started ≤ c.compiled
  | some .compiled => c.created = c.released + 1 ∧ c.compiled ≤ c.created ∧ c.started < c.compiled
  | some .failed => c.created = c.released + 1 ∧ c.compiled ≤ c.created ∧ c.started ≤ c.compiled
  | some .inputParsed | some .evaluating | some .done => False

theorem Accounted.released {c : Counts} {seen : State} (h : Accounted c (some seen)) :
    Accounted { c with released := c.released + 1 } none := by
  cases seen with
  | created => simp only [Accounted] at h ⊢; omega
  | compiled => simp only [Accounted] at h ⊢; omega
  | failed => exact h
  | inputParsed => cases h
  | evaluating => cases h
  | done => cases h

theorem Accounted.created {c : Counts} (h : Accounted c none) :
    Accounted { c with created := c.created + 1 } (some .created) := by
  simp only [Accounted] at h ⊢
  omega

theorem Accounted.compiled {c : Counts} (h : Accounted c (some .created)) :
    Accounted { c with compiled := c.compiled + 1 } (some .compiled) := by
  simp only [Accounted] at h ⊢
  omega

theorem Accounted.failed {c : Counts} (h : Accounted c (some .created)) :
    Accounted { c with compiled := c.compiled + 1 } (some .failed) := by
  simp only [Accounted] at h ⊢
  omega

theorem Accounted.run {c : Counts} (h : Accounted c (some .compiled)) (parsed : Bool) :
    Accounted { c with
      started := c.started + if parsed then 1 else 0
      released := c.released + 1 } none := by
  cases parsed <;> simp only [Accounted, Bool.false_eq_true, if_true, if_false] at h ⊢ <;> omega

def Balanced (h : Holder World Actor) : Prop := Accounted (counts h.trace) h.state?

theorem Balanced.release {h : Holder World Actor} (balanced : h.Balanced) :
    Accounted (counts (h.release Script.engine)) none := by
  rcases h with ⟨_ | s, t⟩
  · exact balanced
  · exact Accounted.released balanced

theorem Balanced.step {h : Holder World Actor} (balanced : h.Balanced) {step : Step}
    (allowed : h.Allows step) : (h.step Script.engine step).2.Balanced := by
  cases step with
  | create =>
    have free := balanced.release
    simp only [Balanced, Holder.step]
    cases fails : (h.release Script.engine).world.script.failCreate with
    | true =>
      rw [Script.create_refused fails]
      exact free
    | false =>
      rw [Script.create_granted fails]
      exact free.created
  | compile filter =>
    rcases h with ⟨_ | s, t⟩
    · exact balanced
    · have fresh : s.state = .created := allowed s rfl
      have ready : Accounted (counts t) (some s.state) := balanced
      rw [fresh] at ready
      show Accounted (counts (s.compile _ filter t).2) (some (s.compile _ filter t).1.2.state)
      rw [Script.counts_compile]
      cases diagnostic : s.engine.compileError with
      | none =>
        rw [Script.compile_accepted diagnostic]
        exact ready.compiled
      | some d =>
        rw [Script.compile_rejected diagnostic]
        exact ready.failed
  | run json options =>
    rcases h with ⟨_ | s, t⟩
    · exact balanced
    · simp only [Holder.step]
      cases read : Options.ofJson options with
      | error m => exact balanced
      | ok o =>
        have compiled : s.state = .compiled := allowed o read s rfl
        have ready : Accounted (counts t) (some s.state) := balanced
        rw [compiled] at ready
        show Accounted (counts (s.run _ json o t).2) none
        rw [Script.counts_run]
        exact ready.run _
  | drop =>
    rcases h with ⟨_ | s, t⟩
    · exact balanced
    · exact balanced.release
  | debug =>
    rcases h with ⟨_ | s, t⟩
    · exact balanced
    · exact balanced

theorem Balanced.follow {h : Holder World Actor} (balanced : h.Balanced) {steps : List Step}
    (allowed : h.AllowsAll Script.engine steps) : (h.follow Script.engine steps).Balanced := by
  induction steps generalizing h with
  | nil => exact balanced
  | cons step steps ih => exact ih (balanced.step allowed.1) allowed.2

theorem Balanced.totals {h : Holder World Actor} (balanced : h.Balanced) :
    let c := counts h.trace
    c.created = c.released + (if h.held.isSome then 1 else 0) ∧ c.started ≤ c.compiled ∧
      c.compiled ≤ c.created ∧ h.state? ∈ [none, some .created, some .compiled, some .failed] := by
  rcases h with ⟨_ | ⟨a, seen⟩, t⟩
  · obtain ⟨once, compiled, started⟩ := balanced
    exact ⟨once, started, compiled, by simp [state?]⟩
  · cases seen with
    | created =>
      obtain ⟨once, compiled, started⟩ := balanced
      exact ⟨once, started, Nat.le_of_lt compiled, by simp [state?]⟩
    | compiled =>
      obtain ⟨once, compiled, started⟩ := balanced
      exact ⟨once, Nat.le_of_lt started, compiled, by simp [state?]⟩
    | failed =>
      obtain ⟨once, compiled, started⟩ := balanced
      exact ⟨once, started, compiled, by simp [state?]⟩
    | inputParsed => cases balanced
    | evaluating => cases balanced
    | done => cases balanced

theorem step_create_held (h : Holder World Actor) {s : Session Actor} (held : h.held = some s) :
    let next := (h.step Script.engine .create).2
    (counts next.trace).released = (counts h.trace).released + 1 ∧
      (counts next.trace).created = (counts h.trace).created + h.trace.world.script.granted ∧
      next.trace.events = h.trace.events ++ [.tornDown s.state,
        if h.trace.world.script.failCreate then .engineRefused else .engineCreated] ∧
      next.held.isSome = !h.trace.world.script.failCreate := by
  rcases h with ⟨held', t⟩
  cases held
  simp only [Holder.step, release, Script.granted]
  cases fails : t.world.script.failCreate with
  | true =>
    rw [Script.create_refused (t := s.teardown Script.engine t) fails]
    exact ⟨rfl, rfl, List.append_assoc t.events [_] [_], rfl⟩
  | false =>
    rw [Script.create_granted (t := s.teardown Script.engine t) fails]
    exact ⟨rfl, rfl, List.append_assoc t.events [_] [_], rfl⟩

/-- Every engine that is created is released once: of a held session at the latest by the step that
takes its place, of a request before it is answered. -/
theorem sessions_torn_down_once (script : Script) (steps : List Step)
    (allowed : AllowsAll Script.engine ⟨none, script.fresh⟩ steps) :
    (let h := follow Script.engine ⟨none, script.fresh⟩ steps
     let c := counts h.trace
     c.created = c.released + (if h.held.isSome then 1 else 0) ∧ c.started ≤ c.compiled ∧
       c.compiled ≤ c.created ∧ h.state? ∈ [none, some .created, some .compiled, some .failed]) ∧
    (∀ (h : Holder World Actor) (step : Step), (h.step Script.engine step).1.Refuses →
      (h.step Script.engine step).2 = h) ∧
    (∀ (h : Holder World Actor) (s : Session Actor), h.held = some s →
      let next := (h.step Script.engine .create).2
      (counts next.trace).released = (counts h.trace).released + 1 ∧
        (counts next.trace).created = (counts h.trace).created + h.trace.world.script.granted ∧
        next.trace.events = h.trace.events ++ [.tornDown s.state,
          if h.trace.world.script.failCreate then .engineRefused else .engineCreated] ∧
        next.held.isSome = !h.trace.world.script.failCreate) ∧
    (∀ (json filter : String) (options : Options),
      let c := counts (filterWith Script.engine json filter options script.fresh).2
      c.released = c.created ∧ c.created = script.granted ∧
        c.started = if script.evaluates json then 1 else 0) ∧
    (∀ filter : String,
      let c := counts (validateWith Script.engine filter script.fresh).2
      c.released = c.created ∧ c.created = script.granted ∧ c.started = 0) := by
  have start : Balanced ⟨none, script.fresh⟩ := ⟨rfl, Nat.le_refl 0, Nat.le_refl 0⟩
  refine ⟨(start.follow allowed).totals, step_refused Script.engine,
    fun h s held => step_create_held h held, ?_, ?_⟩
  · intro json filter options
    rw [Script.counts_filterWith]
    exact ⟨rfl, Nat.zero_add _, Nat.zero_add _⟩
  · intro filter
    rw [Script.counts_validateWith]
    exact ⟨rfl, Nat.zero_add _, rfl⟩

def refusing : Script := ⟨false, some (.json .null), [.ok (.str "a"), .error "b"]⟩

def mishaps : List Step :=
  [.run "1" .null, .create, .compile ".", .run "1" (.bool true), .create, .compile ".a",
    .run "[1]" .null, .drop, .create, .create]

def stranded : Holder World Actor :=
  ⟨some ⟨⟨none, [.ok .null]⟩, .compiled⟩, ⟨⟨⟨true, none, []⟩, ⟨1, 1, 0, 0⟩⟩, [.engineCreated]⟩⟩

theorem mishaps_torn_down_once :
    (let h := follow Script.engine ⟨none, refusing.fresh⟩ mishaps
     AllowsAll Script.engine ⟨none, refusing.fresh⟩ mishaps ∧ counts h.trace = ⟨4, 2, 1, 3⟩ ∧
       (counts h.trace).created = (counts h.trace).released + 1) ∧
    (let next := (stranded.step Script.engine .create).2
     (counts next.trace).released = 1 ∧ (counts next.trace).created = 1 ∧ next.held.isSome = false ∧
       next.trace.events = [.engineCreated, .tornDown .compiled, .engineRefused]) := by
  have unheld : ∀ s : Session Actor, s ∈ (none : Option (Session Actor)) → s.state = .compiled :=
    fun _ member => nomatch member
  have allowed : AllowsAll Script.engine ⟨none, refusing.fresh⟩ mishaps := by
    refine ⟨fun _ _ => unheld, trivial, ?_, ?_, trivial, ?_, ?_, trivial, trivial, trivial, trivial⟩
    · rintro s ⟨⟩
      rfl
    · intro o read
      cases read
    · rintro s ⟨⟩
      rfl
    · rintro o - s ⟨⟩
      rfl
  obtain ⟨totals, -, replaced, -, -⟩ := sessions_torn_down_once refusing mishaps allowed
  obtain ⟨released, created, events, lost⟩ := replaced stranded _ rfl
  exact ⟨⟨allowed, by decide, totals.1⟩, released, created, lost, events⟩

end JsonFilter.Holder
