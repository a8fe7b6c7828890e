import JsonFilter.Numeric.Exact
import JsonFilter.Value.Error

namespace JsonFilter.Value

def computed : Value → Value
  | .literal t => .float (literalFloat t)
  | v => v

def pieces (separator : List Char) : List Char → Nat → List Char → List (List Char)
  | [], _, acc => [acc.reverse]
  | _ :: rest, skip + 1, acc => pieces separator rest skip acc
  | c :: rest, 0, acc =>
    if separator.isPrefixOf (c :: rest) then
      acc.reverse :: pieces separator rest (separator.length - 1) []
    else pieces separator rest 0 (c :: acc)

/-- An empty text has no pieces, and an empty separator gives the characters. -/
def splitText (text separator : String) : List String :=
  if text.isEmpty then []
  else if separator.isEmpty then text.toList.map fun c => String.ofList [c]
  else (pieces separator.toList text.toList 0 []).map String.ofList

def repeated (s : String) (n : Nat) : String :=
  String.ofList ((List.replicate n s.toList).flatten)

mutual

/-- Objects merge member by member, objects inside them as well; other values are replaced. -/
def merge (ms : List (String × Value)) : List (String × Value) → List (String × Value)
  | [] => ms
  | (k, v) :: ns => merge (mergeMember ms k v) ns

def mergeMember : List (String × Value) → String → Value → List (String × Value)
  | ms, k, .obj inner =>
    match Members.get? ms k with
    | some (.obj old) => Members.put ms k (.obj (merge old inner))
    | _ => Members.put ms k (.obj inner)
  | ms, k, v => Members.put ms k v

end

def without (xs ys : List Value) : List Value := xs.filter fun x => ys.all fun y => !equal x y

def calculate (op : MathOp) (l r : Value) : Except EvalError Value :=
  match op, l, r with
  | .add, .null, x | .add, x, .null => .ok x
  | .mul, .str s, .int i | .mul, .int i, .str s =>
    .ok (if i > 0 then .str (repeated s i.toNat) else .null)
  | _, _, _ =>
    match op, computed l, computed r with
    | .add, .int i, .int j => .ok (.int (i + j))
    | .sub, .int i, .int j => .ok (.int (i - j))
    | .mul, .int i, .int j => .ok (.int (i * j))
    | .div, .int i, .int j => .ok (.float (intFloat i / intFloat j))
    | .rem, .int i, .int j =>
      if j = 0 then .error (.calculation l op r) else .ok (.int (i.tmod j))
    | .add, .str s, .str t => .ok (.str (s ++ t))
    | .add, .arr xs, .arr ys => .ok (.arr (xs ++ ys))
    | .add, .obj ms, .obj ns => .ok (.obj (Members.putAll ms ns))
    | .sub, .arr xs, .arr ys => .ok (.arr (without xs ys))
    | .mul, .obj ms, .obj ns => .ok (.obj (merge ms ns))
    | .div, .str s, .str t => .ok (.arr ((splitText s t).map .str))
    | op, l, r =>
      match number? l, number? r with
      | some x, some y => .ok (.float (floats op x y))
      | _, _ => .error (.calculation l op r)
where
  number? : Value → Option Float
    | .int i => some (intFloat i)
    | .float x => some x
    | _ => none
  floats : MathOp → Float → Float → Float
    | .add, x, y => x + y
    | .sub, x, y => x - y
    | .mul, x, y => x * y
    | .div, x, y => x / y
    | .rem, x, y => Numeric.remainder x y

def negate (v : Value) : Except EvalError Value :=
  match computed v with
  | .int i => .ok (.int (-i))
  | .float x => .ok (.float (-x))
  | v => .error (.mismatch v .number)

def length : Value → Except EvalError Value
  | .null => .ok (.int 0)
  | .bool b => .error (.text ((Value.bool b).text ++ " has no length"))
  | .int i => .ok (.int i.natAbs)
  | .float x => .ok (.float x.abs)
  | .literal t => .ok (.float (literalFloat t).abs)
  | .str s => .ok (.int s.length)
  | .arr xs => .ok (.int xs.length)
  | .obj ms => .ok (.int ms.length)

end JsonFilter.Value
