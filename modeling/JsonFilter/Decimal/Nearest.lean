import JsonFilter.Decimal.Binary

namespace JsonFilter.Decimal

def digitsValue (ds : List Char) : Nat := ds.foldl (fun n c => n * 10 + (c.toNat - '0'.toNat)) 0

/-- The largest exponent that can matter for a float; beyond it a value is zero or infinite. -/
def farExponent : Int := 2000

/-- The nearest float to `digits * 10 ^ exponent`, where `digits` has `length` digits. -/
def nearest (digits : Nat) (length : Nat) (exponent : Int) : Float :=
  if digits = 0 then 0
  else if exponent + length > farExponent then 1 / 0
  else if exponent + length < -farExponent then 0
  else if exponent ≥ 0 then Float.ofScientific digits false exponent.toNat
  else Float.ofScientific digits true (-exponent).toNat

def exponentValue : List Char → Int
  | 'e' :: '-' :: ds | 'E' :: '-' :: ds => -(digitsValue (ds.takeWhile Char.isDigit) : Int)
  | 'e' :: '+' :: ds | 'E' :: '+' :: ds => digitsValue (ds.takeWhile Char.isDigit)
  | 'e' :: ds | 'E' :: ds => digitsValue (ds.takeWhile Char.isDigit)
  | _ => 0

def float (text : List Char) : Float :=
  let (negative, text) := match text with
    | '-' :: cs => (true, cs)
    | cs => (false, cs)
  let (whole, rest) := text.span Char.isDigit
  let (fraction, rest) := match rest with
    | '.' :: cs => cs.span Char.isDigit
    | cs => ([], cs)
  let ds := whole ++ fraction
  let x := nearest (digitsValue ds) ds.length (exponentValue rest - fraction.length)
  if negative then -x else x

end JsonFilter.Decimal
