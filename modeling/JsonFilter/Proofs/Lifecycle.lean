import JsonFilter.Log
import JsonFilter.Proofs.Events

namespace JsonFilter

def Results.Logs (P : Event → Prop) : Results → Prop
  | .done | .interrupted _ => True
  | .item _ rest => (rest ()).Logs P
  | .note e rest => P e ∧ (rest ()).Logs P

section Evaluation

variable {P : Event → Prop}

theorem Filter.Machine.logs_results (written : ∀ n : Note, P n.event) (lib : Library) (host : Host)
    (steps : Nat) (m : Machine) : (m.results lib host steps).Logs P := by
  induction steps generalizing m with
  | zero => exact True.intro
  | succ steps ih =>
    rw [results]
    cases m.step lib host with
    | next m => exact ih m
    | item v m => exact ih m
    | note n m => exact ⟨written n, ih m⟩
    | failed e => exact True.intro
    | exit e => exact True.intro
    | done => exact True.intro

variable {rs : Results} (pulled : ∀ i, P (.resultPulled i))

include pulled

theorem Stream.pull_events (logs : rs.Logs P) (k : Nat) : ∀ e ∈ (pull k rs).events, P e := by
  induction rs with
  | done => nofun
  | interrupted i => nofun
  | item r rest ih =>
    cases r with
    | error m => nofun
    | ok j =>
      intro e member
      rw [List.mem_singleton.mp member]
      exact pulled k
  | note e rest ih =>
    intro e' member
    rcases List.mem_cons.mp member with rfl | later
    · exact logs.1
    · exact ih () logs.2 e' later

theorem Results.drain_events (logs : rs.Logs P) (shape : Shape) (k : Nat) (acc : List String)
    {es : List Event} (before : ∀ e ∈ es, P e) : ∀ e ∈ (rs.drain shape k acc es).events, P e := by
  have reversed {es : List Event} (all : ∀ e ∈ es, P e) : ∀ e ∈ es.reverse, P e :=
    fun e member => all e (List.mem_reverse.mp member)
  induction rs generalizing k acc es with
  | done => exact reversed before
  | interrupted i => exact reversed before
  | note e rest ih => exact ih () logs.2 k acc (List.forall_mem_cons.mpr ⟨logs.1, before⟩)
  | item r rest ih =>
    cases r with
    | error m => exact reversed before
    | ok j =>
      have before := List.forall_mem_cons.mpr ⟨pulled k, before⟩
      rw [drain]
      cases shape.format (.json j) with
      | ok text => exact ih () logs (k + 1) (text :: acc) before
      | error f => exact reversed before

theorem Session.evaluate_events (logs : rs.Logs P) (o : Options) :
    ∀ e ∈ (evaluate o rs).events, P e := by
  unfold evaluate
  cases o.multipleOutputs with
  | true => exact Results.drain_events pulled logs o.shape 0 [] nofun
  | false => exact Stream.pull_events pulled logs 0

end Evaluation

theorem Log.Selection.hears_lifecycle (e : Event) :
    lifecycle.hears e = decide (e.target = "jqfilter::session") := by
  cases e <;> simp [hears, decisive, lifecycle, Directive.concerns, Event.target, Threshold.hears,
    Event.level, Level.rank]

theorem Log.Selection.heard_sessions {es : List Event}
    (all : ∀ e ∈ es, e.target = "jqfilter::session") : lifecycle.heard es = es := by
  refine List.filter_eq_self.mpr fun e member => ?_
  rw [hears_lifecycle, decide_eq_true (all e member)]

theorem Session.unheard_evaluate (o : Options) (p : Filter.Program) (setting : Filter.Setting)
    (j : Json) : Log.Selection.lifecycle.heard (evaluate o (p.results setting j)).events = [] := by
  have native : "jaq_std" ≠ "jqfilter::session" := by decide
  have foreign : ∀ n : Filter.Note, n.event.target ≠ "jqfilter::session" := by
    rintro ⟨⟩
    · exact native
    · exact native
  have logs : (p.results setting j).Logs fun e => e.target ≠ "jqfilter::session" :=
    Filter.Machine.logs_results foreign _ _ _ _
  have pulled (i : Nat) : (Event.resultPulled i).target ≠ "jqfilter::session" := by
    show "jqfilter::engine" ≠ "jqfilter::session"
    decide
  refine List.filter_eq_nil_iff.mpr fun e member => ?_
  rw [Log.Selection.hears_lifecycle, decide_eq_true_iff]
  exact evaluate_events pulled logs o e member

def Failure.event : Failure → Event
  | ⟨.base, _⟩ => .engineRefused
  | ⟨.compile, m⟩ => .compileFailed m
  | ⟨.parse, m⟩ => .parseFailed m
  | ⟨.runtime, m⟩ => .evaluationFailed m

/-- What is heard of a request behind the creation of its engine. One that is interrupted tears
nothing down. -/
def Outcome.ending : Outcome → List Event
  | .output _ => [.tornDown .done]
  | .failed f => [f.event, .tornDown .failed]
  | .interrupted _ => []

theorem Outcome.ofItems_runtime {o : Options} {items : List (Except String Json)}
    {cut : Option Interruption} {f : Failure} (failed : ofItems o items cut = .failed f) :
    f.kind = .runtime := by
  rcases ofItems_cases o items cut with ⟨out, came⟩ | ⟨m, came, -⟩ | ⟨i, came, -⟩
  · cases came.symm.trans failed
  · cases came.symm.trans failed
    rfl
  · cases came.symm.trans failed

theorem closing_eq_ending {drained : Except Interruption (Except Failure Output)}
    (runtime : ∀ f, Outcome.ofDrained drained = .failed f → f.kind = .runtime) :
    closing drained = (Outcome.ofDrained drained).ending := by
  rcases drained with i | ⟨kind, m⟩ | out
  · rfl
  · cases runtime _ rfl
    rfl
  · rfl

namespace Interpreter

variable {text filter : String} {p : Filter.Program} {ds : List Filter.Diagnostic} {j : Json}
  {m : String} (o : Options) (w : World)

theorem heard_refused (refused : Filter.Program.compile filter = .error ds) :
    Log.Selection.lifecycle.heard (filterWith engine text filter o ⟨w, []⟩).2.events =
      [.engineCreated, .compileFailed (Filter.Diagnostic.joined ds), .tornDown .failed] := by
  simp only [filterWith, Session.create, engine, Session.compile, compile_refused refused,
    Session.teardown, Trace.log]
  exact Log.Selection.heard_sessions (by simp [Event.target])

theorem heard_unread (compiled : Filter.Program.compile filter = .ok p)
    (rejected : Document.ofText text = .invalid (some m)) :
    Log.Selection.lifecycle.heard (filterWith engine text filter o ⟨w, []⟩).2.events =
      [.engineCreated, .parseFailed m, .tornDown .failed] := by
  simp only [filterWith, Session.create, engine, Session.compile, compile_accepted compiled,
    Session.run, rejected, Session.teardown, Trace.log]
  exact Log.Selection.heard_sessions (by simp [Event.target])

theorem heard_evaluated (compiled : Filter.Program.compile filter = .ok p)
    (parsed : Document.ofText text = .json j) :
    Log.Selection.lifecycle.heard (filterWith engine text filter o ⟨w, []⟩).2.events =
      .engineCreated :: closing (Session.evaluate o (p.results (w 0) j)).value := by
  have ends : Log.Selection.lifecycle.heard (closing (Session.evaluate o (p.results (w 0) j)).value) =
      closing (Session.evaluate o (p.results (w 0) j)).value := by
    refine Log.Selection.heard_sessions ?_
    rcases (Session.evaluate o (p.results (w 0) j)).value with i | f | out <;>
      simp [closing, Event.target]
  have created : Log.Selection.lifecycle.hears .engineCreated = true := by
    simp [Log.Selection.hears_lifecycle, Event.target]
  have silent := Session.unheard_evaluate o p (w 0) j
  rw [filterWith_events o _ compiled parsed]
  unfold Log.Selection.heard at silent ends ⊢
  rw [List.nil_append, List.filter_cons_of_pos created, List.filter_append, silent, ends,
    List.nil_append]

theorem heard_filterWith (text filter : String) :
    let r := filterWith engine text filter o ⟨w, []⟩
    Log.Selection.lifecycle.heard r.2.events = .engineCreated :: r.1.ending ∧
      ∀ m, r.1 ≠ .failed ⟨.base, m⟩ := by
  dsimp only
  cases compiled : Filter.Program.compile filter with
  | error ds =>
    rw [heard_refused o w compiled, filterWith_refused o _ compiled]
    exact ⟨rfl, nofun⟩
  | ok p =>
    rcases Document.ofText_cases text with ⟨j, parsed⟩ | ⟨m, rejected⟩
    · have runtime : ∀ f, Outcome.ofItems o (p.results (w 0) j).toList
          (p.results (w 0) j).interruption? = .failed f → f.kind = .runtime :=
        fun _ => Outcome.ofItems_runtime
      rw [heard_evaluated o w compiled parsed, filterWith_evaluated o _ compiled parsed]
      refine ⟨?_, fun m failed => nomatch runtime _ failed⟩
      rw [← Session.evaluate_outcome] at runtime ⊢
      exact congrArg _ (closing_eq_ending runtime)
    · rw [heard_unread o w compiled rejected, filterWith_unread o _ compiled rejected]
      exact ⟨rfl, nofun⟩

theorem heard_validateWith (filter : String) :
    let r := validateWith engine filter ⟨w, []⟩
    Log.Selection.lifecycle.heard r.2.events = .engineCreated ::
      match r.1 with
      | .ok () => [.tornDown .compiled]
      | .error f => [f.event, .tornDown .failed] := by
  dsimp only
  cases compiled : Filter.Program.compile filter with
  | error ds =>
    rw [validateWith_error _ compiled]
    simp only [validateWith, Session.create, engine, Session.compile, compile_refused compiled,
      Session.teardown, Trace.log]
    exact Log.Selection.heard_sessions (by simp [Event.target])
  | ok p =>
    rw [validateWith_ok _ compiled]
    simp only [validateWith, Session.create, engine, Session.compile, compile_accepted compiled,
      Session.teardown, Trace.log]
    exact Log.Selection.heard_sessions (by simp [Event.target])

end Interpreter

end JsonFilter
