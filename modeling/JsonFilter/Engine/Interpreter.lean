import JsonFilter.Engine.Basic
import JsonFilter.Filter.Program

namespace JsonFilter

structure Interpreter where
  program : Option Filter.Program := none

namespace Interpreter

def noProgram : String := "no program compiled"

def compile (i : Interpreter) (source : String) : Except Document Unit × Interpreter :=
  match Filter.Program.compile source with
  | .ok p => (.ok (), ⟨some p⟩)
  | .error ds => (.error (.invalid (some (Filter.Diagnostic.joined ds))), i)

def start (i : Interpreter) (setting : Filter.Setting) : Document → Results
  | .invalid none => .done
  | .invalid (some m) => .ofList [.error m]
  | .json j =>
    match i.program with
    | none => .ofList [.error noProgram]
    | some p => p.results setting j

def summary (i : Interpreter) : String :=
  "JaqEngine \x7b compiled: " ++ toString i.program.isSome ++ " \x7d"

/-- What can be asked of one interpreter. An evaluation is abandoned after so many pulls. -/
inductive Step
  | compile (source : String)
  | start (setting : Filter.Setting) (input : Document) (pulls : Nat)
  | debug

inductive Answer
  | compiled
  | rejected (diagnostic : Document)
  | evaluated (results : List Document) (pulled : Nat) (terminated : Bool)
  | interrupted (i : Interruption)
  | summary (text : String)

def step (i : Interpreter) : Step → Answer × Interpreter
  | .compile source =>
    match i.compile source with
    | (.ok (), i) => (.compiled, i)
    | (.error d, i) => (.rejected d, i)
  | .start setting input n =>
    let s := Stream.ofResults (i.start setting input)
    match s.interruption? n with
    | some why => (.interrupted why, i)
    | none => (.evaluated (s.pulls n) (s.after n).pulled (s.after n).isEnded, i)
  | .debug => (.summary i.summary, i)

def follow (i : Interpreter) (steps : List Step) : Interpreter :=
  steps.foldl (fun i s => (i.step s).2) i

def answers : Interpreter → List Step → List Answer
  | _, [] => []
  | i, s :: steps => (i.step s).1 :: answers (i.step s).2 steps

/-- The settings of the evaluations to come. -/
abbrev World := Nat → Filter.Setting

def engine : Engine World Interpreter where
  create w := (some {}, w)
  compile i source w := (i.compile source, w)
  start i input w := (i.start (w 0) input, fun n => w (n + 1))
  release _ w := w

end Interpreter

end JsonFilter
