import JsonFilter.Filter.Native.Basic
import JsonFilter.Filter.Term

namespace JsonFilter.Filter

inductive FoldKind
  | reduce | foreach
deriving DecidableEq, Repr

inductive Keyed
  | sort | group | least | greatest
deriving DecidableEq, Repr

inductive Slot
  | const (v : Value)
  | nth (i : Nat)

/-- A step of a path. A range without bounds stands for all parts. -/
inductive Step
  | index (slot : Slot) (optional : Bool)
  | range (lower upper : Option Slot) (optional : Bool)

def Step.isOptional : Step → Bool
  | .index _ o | .range _ _ o => o

mutual

inductive Code
  | const (v : Value)
  | identity
  | recurse
  | toText
  | collect (content : Code)
  | single (key value : Code)
  | negate (c : Code)
  | pipe (left right : Code)
  /-- Binds each value of the source, or all elements of it if they are spread. -/
  | bind (spread : Bool) (source body : Code)
  | comma (left right : Code)
  | alt (left right : Code)
  | cond (test yes no : Code)
  /-- Stops at values on the left that are as true as `stop`. -/
  | logic (stop : Bool) (left right : Code)
  | math (left : Code) (op : MathOp) (right : Code)
  | compare (left : Code) (c : Comparison) (right : Code)
  | assign (path value : Code)
  | update (path value : Code)
  | updateMath (path : Code) (op : MathOp) (value : Code)
  | updateAlt (path value : Code)
  | fold (kind : FoldKind) (spread : Bool) (source start step : Code) (projection : Option Code)
  | attempt (body : Code) (handler : Option Code)
  | label (body : Code)
  | breakTo (place : Nat)
  /-- Follows the steps from each value of the start, with every array of indices. -/
  | path (start : Code) (indices : Option Code) (steps : List Step)
  | var (place : Nat)
  | gather (places : List Nat)
  | argument (place : Nat)
  | define (body rest : Code)
  | callLocal (place : Nat) (args : List Arg)
  | callGlobal (index : Nat) (args : List Arg)
  | native (run : Native) (args : List Nat)
  | raise
  | first (c : Code)
  | last (c : Code)
  | limit (count : Nat) (c : Code)
  | keyed (what : Keyed) (key : Code)
  | span (start stop step : Nat)

inductive Arg
  | value (place : Nat)
  | filter (c : Code)

end

instance : Inhabited Code := ⟨.identity⟩

structure Global where
  name : String
  params : List String
  body : Code

instance : Inhabited Global := ⟨⟨"", [], .identity⟩⟩

abbrev Library := Array Global

namespace Code

/-- The arrays with one value of each code, the first one outermost. The code at place `i` sees the
values of those in front of it. -/
def tuples (codes : List Code) : Code :=
  codes.foldr (fun c rest => .bind false c rest)
    (.gather ((List.range codes.length).map fun i => codes.length - 1 - i))

def binding (codes : List Code) (body : Code) : Code :=
  match codes with
  | [] => body
  | [c] => .bind false c body
  | cs => .bind true (tuples cs) body

def sum (zero : Value) : List Code → Code
  | [] => .const zero
  | [c] => c
  | c :: cs => .math c .add (sum zero cs)

def along (start : Code) (indices : List Code) (steps : List Step) : Code :=
  .path start (if indices.isEmpty then none else some (tuples indices)) steps

def part : Code → Code
  | .const v => .path .identity none [.index (.const v) false]
  | c => along .identity [c] [.index (.nth 0) false]

end Code

end JsonFilter.Filter
