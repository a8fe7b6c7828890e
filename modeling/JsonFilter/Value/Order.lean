import JsonFilter.Value.Basic

namespace JsonFilter.Value

/-- Zeros are equal whatever their sign; a NaN on the left is less, on the right greater. -/
def compareFloat (x y : Float) : Ordering :=
  if x == 0 && y == 0 then .eq
  else if x.isNaN then .lt
  else if y.isNaN then .gt
  else if x < y then .lt
  else if y < x then .gt
  else .eq

def rank : Value → Nat
  | .null => 0
  | .bool _ => 1
  | .int _ | .float _ | .literal _ => 2
  | .str _ => 3
  | .arr _ => 4
  | .obj _ => 5

def compareNumber : Value → Value → Ordering
  | .int i, .int j => compare i j
  | x, y => compareFloat (toFloat x) (toFloat y)
where
  toFloat : Value → Float
    | .int i => intFloat i
    | .float x => x
    | .literal t => literalFloat t
    | _ => 0

def compareKeys : List String → List String → Ordering
  | [], [] => .eq
  | [], _ :: _ => .lt
  | _ :: _, [] => .gt
  | k :: ks, l :: ls => (compare k l).then (compareKeys ks ls)

mutual

def compareCanonical : Value → Value → Ordering
  | .arr xs, .arr ys => compareItems xs ys
  | .obj [], .obj [] => .eq
  | .obj [], .obj (_ :: _) => .lt
  | .obj (_ :: _), .obj [] => .gt
  | .obj ms, .obj ns =>
    (compareKeys (Members.keys ms) (Members.keys ns)).then (compareMembers ms ns)
  | .bool b, .bool c => compare b c
  | .str s, .str t => compare s t
  | x, y => (compare x.rank y.rank).then (if x.rank = 2 then compareNumber x y else .eq)

def compareItems : List Value → List Value → Ordering
  | [], [] => .eq
  | [], _ :: _ => .lt
  | _ :: _, [] => .gt
  | x :: xs, y :: ys => (compareCanonical x y).then (compareItems xs ys)

def compareMembers : List (String × Value) → List (String × Value) → Ordering
  | [], [] => .eq
  | [], _ :: _ => .lt
  | _ :: _, [] => .gt
  | (_, x) :: xs, (_, y) :: ys => (compareCanonical x y).then (compareMembers xs ys)

end

mutual

def canonical : Value → Value
  | .arr xs => .arr (canonicalItems xs)
  | .obj ms => .obj (Members.sorted (canonicalMembers ms))
  | other => other

def canonicalItems : List Value → List Value
  | [] => []
  | x :: xs => x.canonical :: canonicalItems xs

def canonicalMembers : List (String × Value) → List (String × Value)
  | [] => []
  | (k, x) :: xs => (k, x.canonical) :: canonicalMembers xs

end

def order (x y : Value) : Ordering := compareCanonical x.canonical y.canonical

def less (x y : Value) : Bool := order x y == .lt

def atMost (x y : Value) : Bool := order x y != .gt

def equal (x y : Value) : Bool := order x y == .eq

def sortedBy {α : Type} (key : α → Value) (xs : List α) : List α :=
  xs.mergeSort fun a b => atMost (key a) (key b)

/-- Whether the needle stands in the text. -/
def occurs (needle text : List Char) : Bool :=
  needle.isPrefixOf text || match text with
    | [] => false
    | _ :: rest => occurs needle rest

mutual

/-- Texts contain their parts, arrays and objects what is contained in some element or member. -/
def contains : Value → Value → Bool
  | .str s, .str t => occurs t.toList s.toList
  | .arr xs, .arr ys => ys.all fun y => someContains xs y
  | .obj ms, .obj ns => ns.all fun (k, y) => memberContains ms k y
  | x, y => equal x y

def someContains : List Value → Value → Bool
  | [], _ => false
  | x :: xs, y => x.contains y || someContains xs y

def memberContains : List (String × Value) → String → Value → Bool
  | [], _, _ => false
  | (k, x) :: xs, key, y => if k = key then x.contains y else memberContains xs key y

end

end JsonFilter.Value
