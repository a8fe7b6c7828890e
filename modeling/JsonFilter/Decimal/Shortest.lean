import JsonFilter.Decimal.Binary

namespace JsonFilter

/-- The positive decimal `digits * 10 ^ exponent`. -/
structure Decimal where
  digits : Nat
  exponent : Int
deriving DecidableEq, Repr

namespace Decimal

def strip : Nat → Decimal → Decimal
  | 0, d => d
  | fuel + 1, d =>
    if d.digits ≠ 0 ∧ d.digits % 10 = 0 then strip fuel ⟨d.digits / 10, d.exponent + 1⟩ else d

end Decimal

namespace Binary

/-- The positive rational `num / den`. -/
structure Ratio where
  num : Nat
  den : Nat

def Ratio.scaled (r : Ratio) (shift : Int) : Ratio :=
  if shift ≥ 0 then ⟨r.num * Nat.pow 10 shift.toNat, r.den⟩
  else ⟨r.num, r.den * Nat.pow 10 (-shift).toNat⟩

/-- The least `k` with `r < 10 ^ k`, looked for next to an estimate from the binary logarithms. -/
def Ratio.magnitude (r : Ratio) : Int :=
  let estimate := ((r.num.log2 : Int) - (r.den.log2 : Int)) * 30103 / 100000
  let fits := fun k : Int =>
    let s := r.scaled (-k)
    s.num < s.den
  let candidates := [estimate - 2, estimate - 1, estimate, estimate + 1, estimate + 2, estimate + 3]
  (candidates.find? fits).getD (estimate + 4)

/-- The float `m * 2 ^ e` in quarters of its spacing, so that the halfway marks are whole: the value
is `4m`, the upper mark `4m + 2`, the lower mark `4m - 2`, or `4m - 1` where the spacing halves. -/
structure Quarters where
  mantissa : Nat
  exponent : Int
  lowGap : Nat

def Quarters.ofParts (m : Nat) (e : Int) : Quarters :=
  ⟨m, e - 2, if m = hidden ∧ e > lowestExponent then 1 else 2⟩

def Quarters.ratio (q : Quarters) (count : Nat) : Ratio :=
  if q.exponent ≥ 0 then ⟨count <<< q.exponent.toNat, 1⟩ else ⟨count, 1 <<< (-q.exponent).toNat⟩

/-- Whether the decimal lies between the marks; a float with even mantissa takes the marks in. -/
def Quarters.holds (q : Quarters) (d : Decimal) : Bool :=
  let low := (q.ratio (4 * q.mantissa - q.lowGap)).scaled (-d.exponent)
  let high := (q.ratio (4 * q.mantissa + 2)).scaled (-d.exponent)
  if q.mantissa % 2 = 0 then low.num ≤ d.digits * low.den ∧ d.digits * high.den ≤ high.num
  else low.num < d.digits * low.den ∧ d.digits * high.den < high.num

/-- The best decimal on the grid of `10 ^ exponent`, if one reads back. -/
def Quarters.onGrid? (q : Quarters) (exponent : Int) : Option Decimal :=
  let r := (q.ratio (4 * q.mantissa)).scaled (-exponent)
  let floor := r.num / r.den
  let below : Decimal := ⟨floor, exponent⟩
  let above : Decimal := ⟨floor + 1, exponent⟩
  let rest := 2 * (r.num % r.den)
  match q.holds below, q.holds above with
  | true, true => some (if rest < r.den ∨ rest = r.den ∧ floor % 2 = 0 then below else above)
  | true, false => some below
  | false, true => some above
  | false, false => none

/-- The shortest decimal that reads back as the positive float `m * 2 ^ e`. -/
def shortest (m : Nat) (e : Int) : Decimal :=
  let q := Quarters.ofParts m e
  let top := (q.ratio (4 * m)).magnitude
  let grids := (List.range 17).map fun n => top - (n + 1 : Nat)
  ((grids.findSome? q.onGrid?).getD ⟨0, 0⟩).strip 17

end Binary

end JsonFilter
