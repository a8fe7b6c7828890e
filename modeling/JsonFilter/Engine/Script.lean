import JsonFilter.Engine.Basic

namespace JsonFilter

structure Script where
  failCreate : Bool := false
  compileError : Option Document := none
  results : List (Except String Json) := []

namespace Script

structure Counts where
  created : Nat := 0
  compiled : Nat := 0
  started : Nat := 0
  released : Nat := 0
deriving DecidableEq, Repr

structure World where
  script : Script
  counts : Counts := {}

/-- What an engine got of the script. -/
structure Actor where
  compileError : Option Document
  results : List (Except String Json)

def engine : Engine World Actor where
  create w :=
    let rest : World := { w with script := {} }
    if w.script.failCreate then (none, rest)
    else
      (some ⟨w.script.compileError, w.script.results⟩,
        { rest with counts := { w.counts with created := w.counts.created + 1 } })
  compile a _ w :=
    let w := { w with counts := { w.counts with compiled := w.counts.compiled + 1 } }
    match a.compileError with
    | some d => ((.error d, { a with compileError := none }), w)
    | none => ((.ok (), a), w)
  start a input w :=
    let w := { w with counts := { w.counts with started := w.counts.started + 1 } }
    match input with
    | .json _ => (.ofList a.results, w)
    | .invalid none => (.done, w)
    | .invalid (some m) => (.ofList [.error m], w)
  release _ w := { w with counts := { w.counts with released := w.counts.released + 1 } }

end Script

end JsonFilter
