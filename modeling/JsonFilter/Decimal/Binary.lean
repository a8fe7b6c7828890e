namespace JsonFilter

inductive Binary
  | finite (negative : Bool) (mantissa : Nat) (exponent : Int)
  | infinite (negative : Bool)
  | notNumber
deriving DecidableEq, Repr

namespace Binary

def fractionBits : Nat := 52

def hidden : Nat := Nat.pow 2 fractionBits

/-- The exponent of the subnormal floats, and of the smallest normal ones. -/
def lowestExponent : Int := -1074

def ofBits (bits : Nat) : Binary :=
  let negative := bits.testBit 63
  let biased := bits / hidden % 2048
  let fraction := bits % hidden
  if biased = 2047 then if fraction = 0 then .infinite negative else .notNumber
  else if biased = 0 then .finite negative fraction lowestExponent
  else .finite negative (hidden + fraction) (lowestExponent + (biased - 1 : Nat))

def ofFloat (x : Float) : Binary := ofBits x.toBits.toNat

def isFinite : Binary → Bool
  | .finite .. => true
  | _ => false

def truncated : Binary → Int
  | .finite negative m e =>
    let size : Nat := if e ≥ 0 then m <<< e.toNat else m >>> (-e).toNat
    if negative then -(size : Int) else size
  | _ => 0

end Binary

end JsonFilter
