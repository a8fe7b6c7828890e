import JsonFilter.Filter.Native.Text
import JsonFilter.Numeric.Special

namespace JsonFilter.Filter.Native

/-- A rounding that gives words; whole numbers stay as they are. -/
def rounding (f : Float → Float) : Native := ofInput fun
  | .int i => .ok (.int i)
  | v => do return .int (Value.wordOfFloat (f (← v.asFloat)))

def ofFloat (f : Float → Value) : Native := ofInput fun v => do return f (← v.asFloat)

def ofFloats (f : Float → Float → Float) : Native := fun _ args => do
  match args with
  | [a, b] =>
    let x ← a.asFloat
    let y ← b.asFloat
    give (.float (f x y))
  | _ => give .null

def ofThreeFloats (f : Float → Float → Float → Float) : Native := fun _ args => do
  match args with
  | [a, b, c] =>
    let x ← a.asFloat
    let y ← b.asFloat
    let z ← c.asFloat
    give (.float (f x y z))
  | _ => give .null

def shortInt (v : Value) : Except EvalError Int := do
  let i ← v.asInt
  if i < -0x80000000 then .error tooSmall
  else if i ≥ 0x80000000 then .error tooLarge
  else .ok i

def scaling : Native := fun _ args => do
  match args with
  | [a, b] =>
    let x ← a.asFloat
    let n ← shortInt b
    give (.float (x.scaleB n))
  | _ => give .null

def ofSpecial (f : Numeric.Special → Float → Float) : Native := fun v _ => do
  let x ← v.asFloat
  return .ask fun h => .ok (.float (f h.special x))

def hypotenuse : Native := fun _ args => do
  match args with
  | [a, b] =>
    let x ← a.asFloat
    let y ← b.asFloat
    return .ask fun h => .ok (.float (h.special.hypotenuse x y))
  | _ => give .null

def ofOrder (f : Numeric.Special → Int → Float → Float) : Native := fun _ args => do
  match args with
  | [a, b] =>
    let n ← shortInt a
    let x ← b.asFloat
    return .ask fun h => .ok (.float (f h.special n x))
  | _ => give .null

def floatFunctions : List (String × (Float → Float)) := [
  ("acos", Float.acos), ("acosh", Float.acosh), ("asin", Float.asin), ("asinh", Float.asinh),
  ("atan", Float.atan), ("atanh", Float.atanh), ("cbrt", Numeric.cubeRoot), ("cos", Float.cos),
  ("cosh", Float.cosh), ("exp", Float.exp), ("exp10", Float.pow 10), ("exp2", Float.exp2),
  ("fabs", Float.abs), ("log", Float.log), ("log10", Float.log10), ("log2", Float.log2),
  ("nearbyint", Float.round), ("rint", Numeric.roundEven), ("sin", Float.sin),
  ("sinh", Float.sinh), ("sqrt", Float.sqrt), ("tan", Float.tan), ("tanh", Float.tanh),
  ("trunc", Numeric.truncate)]

def specialFunctions : List (String × (Numeric.Special → Float → Float)) := [
  ("erf", (·.errorFunction)), ("erfc", (·.errorComplement)), ("expm1", (·.expMinusOne)),
  ("j0", (·.bessel 0)), ("j1", (·.bessel 1)), ("lgamma", (·.logGamma)),
  ("log1p", (·.logOnePlus)), ("tgamma", (·.gamma)), ("y0", (·.besselSecond 0)),
  ("y1", (·.besselSecond 1))]

def pairFunctions : List (String × (Float → Float → Float)) := [
  ("atan2", Float.atan2), ("copysign", Numeric.copySign),
  ("fdim", fun x y => if x.isNaN then x else if y.isNaN then y else if x > y then x - y else 0),
  ("fmax", fun x y => if x.isNaN || x < y then y else x),
  ("fmin", fun x y => if y.isNaN || x < y then x else y),
  ("fmod", Numeric.remainder), ("nextafter", Numeric.next),
  ("pow", Float.pow), ("remainder", Numeric.nearestRemainder)]

def splitFloat : Native := ofFloat fun x =>
  let (m, e) := Numeric.split x
  .arr [.float m, .int e]

def floatParts : Native := ofFloat fun x =>
  let (f, w) := Numeric.parts x
  .arr [.float f, .float w]

def exponent : Native := ofFloat fun x => .int (Numeric.exponent x)

end JsonFilter.Filter.Native
