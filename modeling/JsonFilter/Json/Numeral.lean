import JsonFilter.Json.Basic
import JsonFilter.Json.Fault

namespace JsonFilter.Json

/-- A literal, taken apart: `-` if negative, digits, digits after the point, signed exponent. -/
structure Numeral where
  negative : Bool
  whole : List Char
  fraction : Option (List Char)
  exponent : Option (Bool × List Char)
deriving DecidableEq, Repr

namespace Numeral

def wordLimit : Nat := 0x10000000000000000

def digit (c : Char) : Nat := c.toNat - '0'.toNat

def natOf (ds : List Char) : Nat := ds.foldl (fun n c => n * 10 + digit c) 0

/-- Takes digits into `n` while it stays a word; gives it with the digits that were left out. -/
def absorb : Nat → List Char → Nat × List Char
  | n, [] => (n, [])
  | n, d :: ds =>
    if n * 10 + digit d < wordLimit then absorb (n * 10 + digit d) ds else (n, d :: ds)

def power (e : Nat) : Float := Float.ofScientific 1 false e

/-- `significand * 10 ^ exponent`, or `none` if it overflows. Exponents below the range of powers
are reached by repeated division. -/
def scale : Nat → Float → Int → Option Float
  | 0, _, _ => some 0
  | fuel + 1, f, e =>
    if e.natAbs ≤ 308 then
      if e ≥ 0 then
        let g := f * power e.natAbs
        if g.isInf then none else some g
      else some (f / power e.natAbs)
    else if f == 0 then some f
    else if e ≥ 0 then none
    else scale fuel (f / power 308) (e + 308)

def signed (negative : Bool) (f : Float) : Float := if negative then -f else f

/-- The largest exponent that is kept as written. -/
def exponentLimit : Nat := 0x80000000

def readExponent : Nat → List Char → Nat × Option (List Char)
  | n, [] => (n, none)
  | n, d :: ds =>
    if n * 10 + digit d < exponentLimit then readExponent (n * 10 + digit d) ds else (n, some ds)

/-- The leading digits as a word and the power of ten that goes with them. -/
def significand (n : Numeral) : Nat × Int :=
  let (w, dropped) := absorb 0 n.whole
  let fraction := n.fraction.getD []
  let (s, rest) := absorb w fraction
  (s, (dropped.length : Int) - (fraction.length - rest.length : Nat))

/-- The float that a literal denotes; `none` for one beyond the largest float. -/
def float? (n : Numeral) : Option Float :=
  let (s, e) := n.significand
  let shift : Option Int :=
    match n.exponent with
    | none => some 0
    | some (negative, ds) =>
      match readExponent 0 ds with
      | (_, some _) => none
      | (x, none) => some (if negative then -(x : Int) else x)
  match shift with
  | some x => ((scale 64 (Float.ofNat s) (e + x)).map (signed n.negative))
  | none =>
    let negativeExponent := (n.exponent.map Prod.fst).getD false
    if s = 0 ∨ negativeExponent then some (signed n.negative 0) else none

def isWhole (n : Numeral) : Bool := n.fraction.isNone && n.exponent.isNone

def number? (n : Numeral) : Option Number :=
  let v := natOf n.whole
  if n.isWhole ∧ ¬ n.negative ∧ v < wordLimit then some (.int v)
  else if n.isWhole ∧ n.negative ∧ 0 < v ∧ v ≤ 0x8000000000000000 then some (.int (-(v : Int)))
  else n.float?.map .float

/-- The digits of the exponent behind the point where an overflow is noticed. -/
def unread (n : Numeral) : List Char :=
  match n.exponent with
  | some (_, ds) => (readExponent 0 ds).2.getD []
  | none => []

def splitDigits (cs : List Char) : List Char × List Char := cs.span Char.isDigit

def exponentPart (cs : List Char) : Except Fault ((Bool × List Char) × List Char) :=
  let (negative, cs) := match cs with
    | '+' :: cs => (false, cs)
    | '-' :: cs => (true, cs)
    | cs => (false, cs)
  match splitDigits cs with
  | ([], []) => .error (.at .eofValue [])
  | ([], rest) => .error (.at .invalidNumber rest)
  | (ds, rest) => .ok ((negative, ds), rest)

def withExponent (n : Numeral) : List Char → Except Fault (Numeral × List Char)
  | 'e' :: cs | 'E' :: cs => do
    let (e, rest) ← exponentPart cs
    return ({ n with exponent := some e }, rest)
  | cs => .ok (n, cs)

def withFraction (n : Numeral) : List Char → Except Fault (Numeral × List Char)
  | '.' :: cs =>
    match splitDigits cs with
    | ([], []) => .error (.at .eofValue [])
    | ([], rest) => .error (.at .invalidNumber rest)
    | (ds, rest) => withExponent { n with fraction := some ds } rest
  | cs => withExponent n cs

def unsigned (negative : Bool) (cs : List Char) : Except Fault (Numeral × List Char) :=
  match splitDigits cs with
  | ([], []) => .error (.at .eofValue [])
  | ([], rest) => .error (.at .invalidNumber rest)
  | ('0' :: d :: ds, rest) => .error (.at .invalidNumber (d :: ds ++ rest))
  | (ds, rest) => withFraction ⟨negative, ds, none, none⟩ rest

def read : List Char → Except Fault (Numeral × List Char)
  | '-' :: cs => unsigned true cs
  | cs => unsigned false cs

end Numeral

def readNumber (cs : List Char) : Except Fault (Number × List Char) := do
  let (n, rest) ← Numeral.read cs
  match n.number? with
  | some v => return (v, rest)
  | none => .error (.behind .numberOutOfRange (n.unread ++ rest))

end JsonFilter.Json
