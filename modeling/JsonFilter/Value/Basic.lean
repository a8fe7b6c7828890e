import JsonFilter.Json.Printer
import JsonFilter.Json.Reader
import JsonFilter.Decimal.Nearest

namespace JsonFilter

inductive Value
  | null
  | bool (value : Bool)
  | int (value : Int)
  | float (value : Float)
  /-- A number that has not been calculated with, as it was written. -/
  | literal (text : String)
  | str (value : String)
  | arr (items : List Value)
  | obj (members : List (String × Value))
deriving Inhabited

namespace Value

def lowestInt : Int := -0x8000000000000000

def highestInt : Int := 0x7fffffffffffffff

def fitsInt (i : Int) : Bool := lowestInt ≤ i && i ≤ highestInt

def ofNumeral (text : List Char) : Value :=
  let (negative, ds) := match text with
    | '-' :: ds => (true, ds)
    | ds => (false, ds)
  let i : Int := if negative then -(Decimal.digitsValue ds : Int) else Decimal.digitsValue ds
  if !ds.isEmpty && ds.all Char.isDigit && fitsInt i then .int i else .literal (String.ofList text)

mutual

def ofJson : Json → Value
  | .null => .null
  | .bool b => .bool b
  | .num (.int i) => if fitsInt i then .int i else .literal (String.ofList (Number.int i).chars)
  | .num (.float x) => .literal (String.ofList (Number.float x).chars)
  | .str s => .str s
  | .arr xs => .arr (ofItems xs)
  | .obj ms => .obj (ofMembers ms)

def ofItems : List Json → List Value
  | [] => []
  | x :: xs => ofJson x :: ofItems xs

def ofMembers : List (String × Json) → List (String × Value)
  | [] => []
  | (k, x) :: xs => (k, ofJson x) :: ofMembers xs

end

/-- The document number that a literal denotes. -/
def literalJson (text : String) : Json :=
  match Json.readNumber text.toList with
  | .ok (n, _) => .num n
  | .error _ => .null

mutual

/-- A result as a document. Floats that are no finite number become `null`. -/
def toJson : Value → Json
  | .null => .null
  | .bool b => .bool b
  | .int i => .num (.int i)
  | .float x => if (Binary.ofFloat x).isFinite then .num (.float x) else .null
  | .literal t => literalJson t
  | .str s => .str s
  | .arr xs => .arr (toItems xs)
  | .obj ms => .obj (toMembers ms)

def toItems : List Value → List Json
  | [] => []
  | x :: xs => toJson x :: toItems xs

def toMembers : List (String × Value) → List (String × Json)
  | [] => []
  | (k, x) :: xs => (k, toJson x) :: toMembers xs

end

def truthy : Value → Bool
  | .null | .bool false => false
  | _ => true

def decimals : DecimalLayout := ⟨-4, 15, false⟩

def floatChars (x : Float) : List Char := (decimals.float? x).getD "null".toList

mutual

/-- A value as text inside a filter: compact, and literals as they were written. -/
def chars : Value → List Char
  | .null => "null".toList
  | .bool true => "true".toList
  | .bool false => "false".toList
  | .int i => Decimal.intChars i
  | .float x => floatChars x
  | .literal t => t.toList
  | .str s => Quoted.plain s
  | .arr [] => ['[', ']']
  | .arr (x :: xs) => '[' :: (x.chars ++ itemsChars xs ++ [']'])
  | .obj [] => ['\x7b', '\x7d']
  | .obj ((k, x) :: xs) =>
    '\x7b' :: (Quoted.plain k ++ ':' :: (x.chars ++ membersChars xs ++ ['\x7d']))

def itemsChars : List Value → List Char
  | [] => []
  | x :: xs => ',' :: (x.chars ++ itemsChars xs)

def membersChars : List (String × Value) → List Char
  | [] => []
  | (k, x) :: xs => ',' :: (Quoted.plain k ++ ':' :: (x.chars ++ membersChars xs))

end

def text (v : Value) : String := String.ofList v.chars

def display : Value → String
  | .str s => s
  | v => v.text

def literalFloat (text : String) : Float := Decimal.float text.toList

def intFloat (i : Int) : Float := if i < 0 then -Float.ofNat i.natAbs else Float.ofNat i.natAbs

def wordOfFloat (x : Float) : Int :=
  match Binary.ofFloat x with
  | .notNumber => 0
  | .infinite negative => if negative then lowestInt else highestInt
  | b => max lowestInt (min highestInt b.truncated)

end Value

end JsonFilter
