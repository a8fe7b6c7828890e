import JsonFilter.Value.Error

namespace JsonFilter.Value

/-- A position counted from the end if negative; none in front of the first element. -/
def fromEnd (i : Int) (length : Nat) : Option Nat :=
  if i ≥ 0 then some i.toNat else if length < i.natAbs then none else some (length - i.natAbs)

def position? (i : Int) (length : Nat) : Option Nat :=
  (fromEnd i length).filter (· < length)

def bound (i : Option Int) (length default : Nat) : Nat :=
  match i with
  | none => default
  | some i => min ((fromEnd i length).getD 0) length

def window (lower upper : Option Int) (length : Nat) : Nat × Nat :=
  let a := bound lower length 0
  let b := bound upper length length
  (a, b - a)

def index (v i : Value) : Except EvalError Value :=
  match v, i with
  | .arr xs, .int i => .ok (((position? i xs.length).bind (xs[·]?)).getD .null)
  | .obj ms, .str k => .ok ((Members.get? ms k).getD .null)
  | .arr _, _ | .obj _, _ => .error (.index v i)
  | _, _ => .error (.mismatch v .iterable)

def optionalInt : Option Value → Except EvalError (Option Int)
  | none => .ok none
  | some v => do return some (← v.asInt)

def bounds (lower upper : Option Value) : Except EvalError (Option Int × Option Int) := do
  let a ← optionalInt lower
  let b ← optionalInt upper
  return (a, b)

def sublist {α : Type} (xs : List α) (w : Nat × Nat) : List α := (xs.drop w.1).take w.2

def slice (v : Value) (lower upper : Option Value) : Except EvalError Value :=
  match v with
  | .arr xs => do
    let (a, b) ← bounds lower upper
    return .arr (sublist xs (window a b xs.length))
  | .str s => do
    let (a, b) ← bounds lower upper
    return .str (String.ofList (sublist s.toList (window a b s.length)))
  | _ => .error (.mismatch v .rangeable)

def elements : Value → Except EvalError (List Value)
  | .arr xs => .ok xs
  | .obj ms => .ok (Members.values ms)
  | v => .error (.mismatch v .iterable)

def children : Value → List Value
  | .arr xs => xs
  | .obj ms => Members.values ms
  | _ => []

def intRange (n : Nat) : List Value := (List.range n).map fun (i : Nat) => .int i

def keys : Value → Except EvalError Value
  | .arr xs => .ok (.arr (intRange xs.length))
  | .obj ms => .ok (.arr ((Members.keys ms).map .str))
  | v => .error (.mismatch v .iterable)

def has (v key : Value) : Except EvalError Bool :=
  match v, key with
  | .arr xs, .int i => if i ≥ 0 then .ok (i < xs.length) else .error (.index v key)
  | .obj ms, .str k => .ok (Members.get? ms k).isSome
  | _, _ => .error (.index v key)

mutual

/-- All parts of a value with their paths, each before its own parts. -/
def pathValues (path : List Value) : Value → List (List Value × Value)
  | .arr xs => itemPaths path 0 xs
  | .obj ms => memberPaths path ms
  | _ => []

def itemPaths (path : List Value) (i : Nat) : List Value → List (List Value × Value)
  | [] => []
  | x :: xs =>
    let p := path ++ [.int i]
    (p, x) :: (pathValues p x ++ itemPaths path (i + 1) xs)

def memberPaths (path : List Value) : List (String × Value) → List (List Value × Value)
  | [] => []
  | (k, x) :: ms =>
    let p := path ++ [.str k]
    (p, x) :: (pathValues p x ++ memberPaths path ms)

end

def windowsAt {α : Type} (same : α → α → Bool) (needle : List α) (i : Nat) : List α → List Nat
  | [] => []
  | x :: xs =>
    let here := (x :: xs).take needle.length
    let found := here.length = needle.length ∧ (here.zip needle).all fun (a, b) => same a b
    if found then i :: windowsAt same needle (i + 1) xs else windowsAt same needle (i + 1) xs

def indices (v part : Value) : Except EvalError Value :=
  let found (is : List Nat) : Except EvalError Value := .ok (.arr (is.map fun (i : Nat) => .int i))
  match v, part with
  | .str s, .str t => found (if t.isEmpty then [] else windowsAt (· == ·) t.toList 0 s.toList)
  | .arr xs, .arr ys => found (if ys.isEmpty then [] else windowsAt equal ys 0 xs)
  | .arr xs, y => found (windowsAt equal [y] 0 xs)
  | _, _ => .error (.index v part)

/-- The place of a value in a sorted array by halving, or of its absence as `-1 - place`. -/
def search (xs : Array Value) (x : Value) : Int :=
  if xs.size = 0 then -1
  else
    let base := halve xs.size xs.size 0
    match order (xs.getD base .null) x with
    | .eq => base
    | .lt => -1 - (base + 1 : Nat)
    | .gt => -1 - (base : Int)
where
  halve : Nat → Nat → Nat → Nat
    | 0, _, base => base
    | fuel + 1, size, base =>
      if size ≤ 1 then base
      else
        let half := size / 2
        let base := if order (xs.getD (base + half) .null) x == .gt then base else base + half
        halve fuel (size - half) base

inductive Spot
  | item (i : Nat) (old : Value)
  | member (key : String) (old : Value)

/-- Finds the place to update. A missing member counts as null. -/
def spot (v i : Value) : Except EvalError Spot :=
  match v, i with
  | .obj ms, .str k => .ok (.member k ((Members.get? ms k).getD .null))
  | .obj _, _ => .error (.index v i)
  | .arr xs, _ => do
    let n ← i.asInt
    match position? n xs.length with
    | some p => return .item p (xs[p]?.getD .null)
    | none => .error (.text ("index " ++ i.text ++ " out of bounds"))
  | _, _ => .error (.mismatch v .iterable)

def Spot.fill (s : Spot) (v : Value) (new : Option Value) : Value :=
  match s, v, new with
  | .item i _, .arr xs, some y => .arr (xs.set i y)
  | .item i _, .arr xs, none => .arr (xs.eraseIdx i)
  | .member k _, .obj ms, some y => .obj (Members.put ms k y)
  | .member k _, .obj ms, none => .obj (Members.remove ms k)
  | _, v, _ => v

def Spot.old : Spot → Value
  | .item _ x => x
  | .member _ x => x

def splice (xs : List Value) (w : Nat × Nat) (new : List Value) : Value :=
  .arr (xs.take w.1 ++ new ++ xs.drop (w.1 + w.2))

end JsonFilter.Value
