import JsonFilter.Numeric.Exact

namespace JsonFilter.Numeric

def pi : Float := 3.141592653589793

def expMinusOne (x : Float) : Float :=
  if x.abs < 0.5 then
    ((List.range 20).foldl (fun (sum, term) (i : Nat) =>
      let term := term * x / Float.ofNat (i + 1)
      (sum + term, term)) (0.0, 1.0)).1
  else x.exp - 1

def logOnePlus (x : Float) : Float :=
  let u := 1 + x
  if u == 1 || u.isInf then if u.isInf then u else x else u.log * x / (u - 1)

def hypotenuse (x y : Float) : Float :=
  if x.isInf || y.isInf then 1 / 0
  else
    let m := if x.abs < y.abs then y.abs else x.abs
    if m == 0 then m
    else
      let (_, e) := split m
      let a := x.scaleB (-e)
      let b := y.scaleB (-e)
      (a * a + b * b).sqrt.scaleB e

/-- The coefficients of a rational approximation of the gamma function. -/
def gammaTerms : List Float := [
  676.5203681218851, -1259.1392167224028, 771.32342877765313, -176.61502916214059,
  12.507343278686905, -0.13857109526572012, 9.9843695780195716e-6, 1.5056327351493116e-7]

def gammaUpper (x : Float) : Float :=
  let x := x - 1
  let (sum, _) := gammaTerms.foldl (fun (s, i) c => (s + c / (x + i), i + 1))
    (0.9999999999998099, 1.0)
  let t := x + 7.5
  (2 * pi).sqrt * t.pow (x + 0.5) * (-t).exp * sum

def factorial (n : Nat) : Float :=
  (List.range n).foldl (fun p (i : Nat) => p * Float.ofNat (i + 1)) 1.0

/-- The gamma function, exact for whole numbers as far as factorials are. -/
def gamma (x : Float) : Float :=
  if x.isNaN then x
  else if x == 0 then 1 / x
  else if x.floor == x && !x.isInf then
    if x < 0 then 0 / 0 else if x > 171 then 1 / 0 else factorial (x.toUInt64.toNat - 1)
  else if x.isInf then if x < 0 then 0 / 0 else x
  else if x < 0.5 then pi / ((pi * x).sin * gammaUpper (1 - x))
  else gammaUpper x

def logGamma (x : Float) : Float :=
  if x.isInf then 1 / 0
  else if x > 20 then
    let y := 1 / (x * x)
    (x - 0.5) * x.log - x + 0.5 * (2 * pi).log +
      (1 / 12 - y * (1 / 360 - y * (1 / 1260 - y / 1680))) / x
  else (gamma x).abs.log

def errorSeries (x : Float) : Float :=
  let (sum, _) := (List.range 100).foldl (fun (s, t) (i : Nat) =>
    let n := Float.ofNat i
    (s + t / (2 * n + 1), -t * x * x / (n + 1))) (0.0, x)
  2 / pi.sqrt * sum

/-- What the error function lacks to one, by a continued fraction that is good from two on. -/
def errorTail (x : Float) : Float :=
  let fraction := (List.range 100).foldl (fun t (i : Nat) =>
    x + Float.ofNat (100 - i) / 2 / t) x
  (-x * x).exp / (pi.sqrt * fraction)

def errorComplement (x : Float) : Float :=
  if x > 2 then errorTail x
  else if x < -2 then 2 - errorTail (-x)
  else 1 - errorSeries x

def errorFunction (x : Float) : Float :=
  if x.abs > 2 then 1 - errorComplement x else errorSeries x

/-- The mean of a function of angles over half a turn, at equidistant points. -/
def mean (f : Float → Float) : Float :=
  let n := 200
  let sum := (List.range n).foldl (fun s (i : Nat) =>
    s + f (pi * (Float.ofNat i + 0.5) / Float.ofNat n)) 0.0
  sum / Float.ofNat n

def bessel (order : Int) (x : Float) : Float :=
  let n := signed (order < 0) (Float.ofNat order.natAbs)
  if x == 0 then if order = 0 then 1 else 0
  else mean fun a => (n * a - x * a.sin).cos

def besselSecond (order : Int) (x : Float) : Float :=
  let n := signed (order < 0) (Float.ofNat order.natAbs)
  let sign : Float := if order % 2 = 0 then 1 else -1
  if x == 0 then -1 / 0
  else if x < 0 then 0 / 0
  else
    let step := 0.005
    let tail := (List.range 4000).foldl (fun s (i : Nat) =>
      let t := step * (Float.ofNat i + 0.5)
      s + ((n * t).exp + sign * (-n * t).exp) * (-x * t.sinh).exp * step) 0.0
    mean (fun a => (x * a.sin - n * a).sin) - tail / pi

/-- The functions that a machine brings along in its mathematical library. -/
structure Special where
  expMinusOne : Float → Float
  logOnePlus : Float → Float
  hypotenuse : Float → Float → Float
  errorFunction : Float → Float
  errorComplement : Float → Float
  gamma : Float → Float
  logGamma : Float → Float
  bessel : Int → Float → Float
  besselSecond : Int → Float → Float

/-- Approximations, for a machine without such a library. -/
def Special.approximate : Special where
  expMinusOne := Numeric.expMinusOne
  logOnePlus := Numeric.logOnePlus
  hypotenuse := Numeric.hypotenuse
  errorFunction := Numeric.errorFunction
  errorComplement := Numeric.errorComplement
  gamma := Numeric.gamma
  logGamma := Numeric.logGamma
  bessel := Numeric.bessel
  besselSecond := Numeric.besselSecond

end JsonFilter.Numeric
