import JsonFilter.Members

namespace JsonFilter

/-- Whole numbers are exact, all others are binary floats. -/
inductive Number
  | int (value : Int)
  | float (value : Float)
deriving Inhabited

/-- The whole numbers that a text can denote exactly: signed or unsigned words of 64 bits. -/
def Number.InRange : Number → Prop
  | .int i => -0x8000000000000000 ≤ i ∧ i < 0x10000000000000000
  | .float _ => False

inductive Json
  | null
  | bool (value : Bool)
  | num (value : Number)
  | str (value : String)
  | arr (items : List Json)
  | obj (members : List (String × Json))
deriving Inhabited

namespace Json

def int (i : Int) : Json := .num (.int i)

inductive Kind
  | null | boolean | number | string | array | object
deriving DecidableEq, Repr

def kind : Json → Kind
  | .null => .null
  | .bool _ => .boolean
  | .num _ => .number
  | .str _ => .string
  | .arr _ => .array
  | .obj _ => .object

def Kind.name : Kind → String
  | .null => "null"
  | .boolean => "boolean"
  | .number => "number"
  | .string => "string"
  | .array => "array"
  | .object => "object"

mutual

def depth : Json → Nat
  | .arr items => depthItems items + 1
  | .obj members => depthMembers members + 1
  | _ => 0

def depthItems : List Json → Nat
  | [] => 0
  | x :: xs => max x.depth (depthItems xs)

def depthMembers : List (String × Json) → Nat
  | [] => 0
  | (_, x) :: xs => max x.depth (depthMembers xs)

end

mutual

def size : Json → Nat
  | .arr items => sizeItems items + 1
  | .obj members => sizeMembers members + 1
  | _ => 1

def sizeItems : List Json → Nat
  | [] => 0
  | x :: xs => x.size + sizeItems xs

def sizeMembers : List (String × Json) → Nat
  | [] => 0
  | (_, x) :: xs => x.size + sizeMembers xs

end

mutual

/-- The members of every object in ascending key order; arrays keep their order. -/
def sortKeys : Json → Json
  | .arr items => .arr (sortItems items)
  | .obj members => .obj (Members.sorted (sortMembers members))
  | other => other

def sortItems : List Json → List Json
  | [] => []
  | x :: xs => x.sortKeys :: sortItems xs

def sortMembers : List (String × Json) → List (String × Json)
  | [] => []
  | (k, x) :: xs => (k, x.sortKeys) :: sortMembers xs

end

end Json

end JsonFilter
