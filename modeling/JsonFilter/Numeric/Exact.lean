import JsonFilter.Decimal.Binary

namespace JsonFilter.Numeric

/-- The float nearest to a whole number times a power of two. Bits that cannot matter are gathered
in the last one. -/
def ofInt (n e : Int) : Float :=
  let size := n.natAbs
  let spare := size.log2 - 63
  let kept := size >>> spare
  let kept := if kept <<< spare = size then kept else kept ||| 1
  let x := (Float.ofNat kept).scaleB (e + spare)
  if n < 0 then -x else x

def signed (negative : Bool) (x : Float) : Float := if negative then -x else x

def isNegative (x : Float) : Bool := x.toBits.toNat.testBit 63

def copySign (x y : Float) : Float := signed (isNegative y) x.abs

def remainder (x y : Float) : Float :=
  match Binary.ofFloat x, Binary.ofFloat y with
  | .finite negative m e, .finite _ n f =>
    if n = 0 then 0 / 0
    else
      let low := min e f
      signed negative (ofInt ((m <<< (e - low).toNat) % (n <<< (f - low).toNat) : Nat) low)
  | .finite .., .infinite _ => x
  | _, _ => 0 / 0

/-- The remainder of a division that goes to the nearest whole number, and halfway to the even
one. -/
def nearestRemainder (x y : Float) : Float :=
  match Binary.ofFloat x, Binary.ofFloat y with
  | .finite negative m e, .finite _ n f =>
    if n = 0 then 0 / 0
    else
      let low := min e f
      let a := m <<< (e - low).toNat
      let b := n <<< (f - low).toNat
      let r := a % b
      let up := b < 2 * r ∨ (2 * r = b ∧ a / b % 2 = 1)
      signed negative (ofInt (if up then (r : Int) - b else r) low)
  | .finite .., .infinite _ => x
  | _, _ => 0 / 0

def roundEven (x : Float) : Float :=
  if (x - (if x < 0 then x.ceil else x.floor)).abs == 0.5 then 2 * (x / 2).round else x.round

def truncate (x : Float) : Float := if isNegative x then x.ceil else x.floor

/-- A size from a half up to below one, and a power of two. -/
def split (x : Float) : Float × Int :=
  match Binary.ofFloat x with
  | .finite negative m e =>
    if m = 0 then (x, 0)
    else
      let bits := m.log2 + 1
      (signed negative ((Float.ofNat m).scaleB (-(bits : Int))), e + bits)
  | _ => (x, 0)

def parts (x : Float) : Float × Float :=
  if x.isNaN then (x, x)
  else
    let whole := truncate x
    if whole == x then (signed (isNegative x) 0, x) else (x - whole, whole)

def exponent (x : Float) : Int :=
  match Binary.ofFloat x with
  | .finite _ m e => if m = 0 then -0x80000000 else e + m.log2
  | .infinite _ => 0x7fffffff
  | .notNumber => -0x80000000

def next (x y : Float) : Float :=
  if x.isNaN || y.isNaN then x + y
  else if x == y then y
  else if x == 0 then signed (isNegative y) (Float.ofBits 1)
  else if (x < y) == !(isNegative x) then Float.ofBits (x.toBits + 1)
  else Float.ofBits (x.toBits - 1)

def multiplyAdd (x y z : Float) : Float :=
  match Binary.ofFloat x, Binary.ofFloat y, Binary.ofFloat z with
  | .finite s m e, .finite t n f, .finite u k g =>
    let product : Int := if s = t then (m * n : Nat) else -(m * n : Nat)
    let term : Int := if u then -(k : Int) else k
    let low := min (e + f) g
    let sum := product * Nat.pow 2 (e + f - low).toNat + term * Nat.pow 2 (g - low).toNat
    if sum = 0 then x * y + z else ofInt sum low
  | _, _, _ => x * y + z

/-- The largest number from `r` up to below `r + Nat.pow 2 bits` whose cube is not above `n`. -/
def cubeRootBelow (n : Nat) : Nat → Nat → Nat
  | 0, r => r
  | bits + 1, r =>
    let next := r + Nat.pow 2 bits
    cubeRootBelow n bits (if next * next * next ≤ n then next else r)

/-- The float nearest to the cube root, from a root of 64 bits and whether something is left. -/
def cubeRoot (x : Float) : Float :=
  match Binary.ofFloat x with
  | .finite negative m e =>
    if m = 0 then x
    else
      let spare := 3 * 64 - m.log2 - ((-(e + m.log2)) % 3).toNat
      let n := m <<< spare
      let r := cubeRootBelow n 66 0
      let rest := if r * r * r = n then 0 else 1
      signed negative (ofInt (2 * r + rest : Nat) ((e - spare) / 3 - 1))
  | _ => x

end JsonFilter.Numeric
