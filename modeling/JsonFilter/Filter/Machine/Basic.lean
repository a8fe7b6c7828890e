import JsonFilter.Filter.Code
import JsonFilter.Value.Access

namespace JsonFilter.Filter

inductive Binding
  | value (v : Value)
  | filter (c : Code) (env : List Binding)
  /-- A function; its environment starts at its own place. -/
  | function (body : Code)
  | label (id : Nat)

abbrev Env := List Binding

namespace Env

def value (env : Env) (i : Nat) : Value :=
  match env[i]? with
  | some (.value v) => v
  | _ => .null

def bind (env : Env) (spread : Bool) (v : Value) : Env :=
  match spread, v with
  | true, .arr xs => (xs.map .value).reverse ++ env
  | _, v => .value v :: env

/-- What an argument is bound to. A filter that is handed on keeps its own environment. -/
def argument (env : Env) : Arg → Binding
  | .value i => .value (env.value i)
  | .filter (.argument i) => env[i]?.getD (.value .null)
  | .filter c => .filter c env

def call (env : Env) (args : List Arg) (within : Env) : Env :=
  (args.map env.argument).reverse ++ within

end Env

inductive Change
  | set
  | math (op : MathOp)
  | default

mutual

inductive Focus
  | eval (c : Code) (env : Env) (v : Value)
  | update (c : Code) (env : Env) (v : Value) (u : Updater)
  | apply (u : Updater) (v : Value)
  | deliver (v : Value)
  | raise (e : EvalError)
  | values (vs : List Value)
  | descend (vs : List Value)
  | span (x stop step : Value)
  | exhausted
  | resume (w : Watch) (choices : List Choice)

/-- What can be tried instead, and what is done with its values. -/
inductive Choice
  | mk (focus : Focus) (konts : List Kont)

/-- What is done with a value. -/
inductive Kont
  | negate
  | pipe (right : Code) (env : Env)
  | bind (spread : Bool) (body : Code) (env : Env) (v : Value)
  | cond (yes no : Code) (env : Env) (v : Value)
  | logic (stop : Bool) (right : Code) (env : Env) (v : Value)
  | truth
  | key (value : Code) (env : Env) (v : Value)
  | member (key : Value)
  | mathRight (op : MathOp) (right : Code) (env : Env) (v : Value)
  | math (op : MathOp) (left : Value)
  | compareRight (c : Comparison) (right : Code) (env : Env) (v : Value)
  | compare (c : Comparison) (left : Value)
  | change (path : Code) (env : Env) (v : Value) (how : Change)
  | fold (f : Folding) (source : Code) (env : Env) (v : Value)
  | folded (f : Folding) (env : Env) (choices : List Choice)
  | indices (c : Option Code) (steps : List Step) (env : Env) (v : Value)
  | follow (steps : List Step) (v : Value)
  | steps (steps : List Step) (indices : List Value)
  | update (c : Code) (env : Env) (u : Updater)
  | apply (u : Updater)

/-- What watches the values of a filter. -/
inductive Watch
  | collect (acc : List Value)
  | attempt (handler : Option Code) (env : Env)
  | label (id : Nat)
  /-- Waits for a true value on the left. -/
  | alt (right : Code) (env : Env) (v : Value)
  | truths
  | first
  | last (found : Option Value)
  | limit (count : Nat)
  | fold (f : Folding) (acc : Value)
  | foldPath (f : Folding) (acc : Value) (u : Updater)
  | keyed (what : Keyed) (key : Code) (env : Env) (done : List (Value × Value))
      (acc : List Value) (x : Value) (rest : List Value)
  | fill (spot : Value.Spot) (v : Value)
  | splice (items : List Value) (window : Nat × Nat)
  | items (u : Updater) (done rest : List Value)
  | members (u : Updater) (done : List (String × Value)) (key : String)
      (rest : List (String × Value))
  | branch (left right : Code) (env : Env) (v : Value) (u : Updater)

inductive Updater
  | run (c : Code) (env : Env)
  | change (how : Change) (operand : Value)
  | through (c : Code) (env : Env) (u : Updater)
  | steps (steps : List Step) (indices : List Value) (u : Updater)
  | paths (indices : Code) (env : Env) (v : Value) (steps : List Step) (u : Updater)
  | descend (u : Updater)
  | fold (f : Folding) (choices : List Choice) (u : Updater)
  | emit (projection : Option Code) (env : Env) (u rest : Updater)

inductive Folding
  | eval (kind : FoldKind) (spread : Bool) (step : Code) (projection : Option Code) (env : Env)
  | update (spread : Bool) (body : Code) (env : Env) (u : Updater)
  | cond (yes no : Code) (env : Env) (u : Updater)
  | paths (steps : List Step) (u : Updater)

end

/-- Where the values of a level go. -/
structure Level where
  watch : Watch
  konts : List Kont
  choices : List Choice

structure Machine where
  focus : Focus
  konts : List Kont := []
  choices : List Choice := []
  outer : List Level := []
  labels : Nat := 0
  looks : Nat := 0

def Machine.start (c : Code) (env : Env) (v : Value) : Machine := { focus := .eval c env v }

end JsonFilter.Filter
