import ExactNumerics.Binary64.Rounding

/-!
# Arithmetic on doubles

Each operation is the exact operation on units, rounded once. The cases in front are those where
an operand is infinite or a NaN, and the sign of a zero result.

## Main definitions

* `Binary64.add`, `sub`, `mul`, `div`, `sqrt`: the IEEE operations.
* `Binary64.roundToInteger`, `floor`, `ceiling`, `truncate`: rounding to an integral double.
* `Binary64.min`, `Binary64.max`: a NaN operand gives a NaN.
-/

namespace ExactNumerics

namespace Binary64

/-! ### The four operations -/

/-- The sum. An exact zero is negative only when both operands are. -/
def add (x y : Binary64) : Binary64 :=
  if x.isNaN || y.isNaN then nan
  else if x.isInfinite then
    if y.isInfinite && x.negative != y.negative then nan else x
  else if y.isInfinite then y
  else
    let u := x.units + y.units
    if u = 0 then zero (x.negative && y.negative) else ofUnits u

/-- The difference. -/
def sub (x y : Binary64) : Binary64 := add x y.neg

/-- The product. -/
def mul (x y : Binary64) : Binary64 :=
  let negative := x.negative != y.negative
  if x.isNaN || y.isNaN then nan
  else if x.isInfinite || y.isInfinite then
    if x.magnitude = 0 || y.magnitude = 0 then nan else infinity negative
  else roundUnits negative (x.units.natAbs * y.units.natAbs) unitsPerOne

/-- The quotient; a nonzero number over zero is infinite. -/
def div (x y : Binary64) : Binary64 :=
  let negative := x.negative != y.negative
  if x.isNaN || y.isNaN then nan
  else if x.isInfinite then if y.isInfinite then nan else infinity negative
  else if y.isInfinite then zero negative
  else if y.magnitude = 0 then if x.magnitude = 0 then nan else infinity negative
  else roundUnits negative (x.units.natAbs * unitsPerOne) y.units.natAbs

/-- The square root. The root of a whole number of units has far more than 53 bits before the
point, so half a unit stands for all that follows when the root is not exact. -/
def sqrt (x : Binary64) : Binary64 :=
  if x.isNaN then nan
  else if x.magnitude = 0 then x
  else if x.negative then nan
  else if x.isInfinite then x
  else
    let n := x.units.natAbs * unitsPerOne
    let r := Nat.sqrt n
    roundUnits false (2 * r + if r * r = n then 0 else 1) 2

/-! ### Integral doubles -/

/-- Applies a rule that takes a non-negative quotient to an integer, keeping the sign; infinities
and NaNs stay as they are. -/
def integral (rule : Nat → Nat → Nat) (x : Binary64) : Binary64 :=
  if x.isFinite then
    roundUnits x.negative (rule x.units.natAbs unitsPerOne * unitsPerOne) 1
  else x

/-- The next integer at or above a non-negative quotient. -/
def quotientUp (n d : Nat) : Nat := (n + (d - 1)) / d

/-- The nearest integral double, ties to even. -/
def roundToInteger (x : Binary64) : Binary64 := integral nearestEven x

/-- The integral double towards zero. -/
def truncate (x : Binary64) : Binary64 := integral (· / ·) x

/-- The greatest integral double at or below `x`. -/
def floor (x : Binary64) : Binary64 := if x.negative then integral quotientUp x else truncate x

/-- The least integral double at or above `x`. -/
def ceiling (x : Binary64) : Binary64 := if x.negative then truncate x else integral quotientUp x

/-- The integer towards zero of a finite double. -/
def toInt (x : Binary64) : Int :=
  let m : Int := x.units.natAbs / unitsPerOne
  if x.negative then -m else m

/-- Whether a finite double is an integer. -/
def isIntegral (x : Binary64) : Bool := x.units.natAbs % unitsPerOne = 0

/-! ### Smaller and larger -/

/-- The smaller operand; a NaN if either is one. -/
def min (x y : Binary64) : Binary64 :=
  if x.isNaN || y.isNaN then nan else if x.lt y then x else y

/-- The larger operand; a NaN if either is one. -/
def max (x y : Binary64) : Binary64 :=
  if x.isNaN || y.isNaN then nan else if y.lt x then x else y

end Binary64

end ExactNumerics
