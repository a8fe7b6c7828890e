import JsonFilter.Decimal.Shortest

namespace JsonFilter

structure DecimalLayout where
  /-- Leading digits at `10 ^ lowest` up to `10 ^ highest` are written in positions. -/
  lowest : Int
  highest : Int
  plus : Bool

namespace Decimal

def digitChars (n : Nat) : List Char := Nat.toDigits 10 n

def intChars (i : Int) : List Char :=
  if i < 0 then '-' :: digitChars i.natAbs else digitChars i.natAbs

def positional (digits : List Char) (whole : Int) : List Char :=
  if whole ≤ 0 then '0' :: '.' :: (List.replicate (-whole).toNat '0' ++ digits)
  else
    let front := digits.take whole.toNat
    let back := digits.drop whole.toNat
    front ++ List.replicate (whole.toNat - front.length) '0' ++
      '.' :: (if back.isEmpty then ['0'] else back)

/-- One digit, the others as a fraction if there are any, and the exponent. -/
def scientific (plus : Bool) (digits : List Char) (exponent : Int) : List Char :=
  let sign := if plus && exponent ≥ 0 then ['+'] else []
  let fraction := match digits.drop 1 with
    | [] => []
    | rest => '.' :: rest
  digits.take 1 ++ fraction ++ 'e' :: (sign ++ intChars exponent)

def chars (layout : DecimalLayout) (d : Decimal) : List Char :=
  let digits := digitChars d.digits
  let lead : Int := d.exponent + digits.length - 1
  if layout.lowest ≤ lead ∧ lead ≤ layout.highest then positional digits (lead + 1)
  else scientific layout.plus digits lead

end Decimal

def DecimalLayout.float? (layout : DecimalLayout) (x : Float) : Option (List Char) :=
  match Binary.ofFloat x with
  | .finite negative m e =>
    let size := if m = 0 then ['0', '.', '0'] else (Binary.shortest m e).chars layout
    some (if negative then '-' :: size else size)
  | _ => none

end JsonFilter
