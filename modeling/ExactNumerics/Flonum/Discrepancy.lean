import ExactNumerics.Binary64.Spacing
import ExactNumerics.Failure

/-!
# The error of an approximation

The error of an approximate number against a reference is measured exactly. Numbers are exact
rationals or doubles; an infinite double agrees with itself and is infinitely far from everything
else, and a NaN makes every error a NaN.

## Main definitions

* `Quantity`: an exact rational or a double.
* `Quantity.agrees`, `Quantity.less`: exact equality and order of values.
* `absoluteError`, `relativeError`: `|x - r|` and `|x - r| / |r|`.
* `ulpError`: `|x - r|` in units of the last place of `r`.
-/

namespace ExactNumerics

/-- A number to measure: an exact rational or a double. -/
inductive Quantity where
  /-- An exact number. -/
  | exact (q : Rat)
  /-- A double. -/
  | double (x : Binary64)
  deriving DecidableEq

namespace Quantity

/-- Whether a quantity is a NaN. -/
def isNaN : Quantity → Bool
  | exact _ => false
  | double x => x.isNaN

/-- Whether a quantity has a rational value. -/
def isFinite : Quantity → Bool
  | exact _ => true
  | double x => x.isFinite

/-- The value of a finite quantity. -/
def toRat : Quantity → Rat
  | exact q => q
  | double x => x.toRat

/-- Whether two quantities that are no NaNs have the same value. -/
def agrees (x r : Quantity) : Bool :=
  if x.isFinite && r.isFinite then x.toRat == r.toRat
  else
    match x, r with
    | double x, double r => x.eq r
    | _, _ => false

/-- Whether a quantity is smaller than another one; a NaN is neither smaller nor larger. -/
def less : Quantity → Quantity → Bool
  | exact p, exact q => p < q
  | double x, double y => x.lt y
  | exact p, double y => if y.isFinite then p < y.toRat else !y.isNaN && !y.negative
  | double x, exact q => if x.isFinite then x.toRat < q else !x.isNaN && x.negative

/-- The double nearest to a finite quantity. -/
def toDouble : Quantity → Except Failure Binary64
  | exact q =>
    match Binary64.ofRat? q with
    | some x => .ok x
    | none => .error (.unworded .overflow)
  | double x => .ok x

end Quantity

/-- The absolute value of a rational number. -/
def ratAbs (q : Rat) : Rat := if q < 0 then -q else q

/-- The distance between an approximation and a reference. -/
def absoluteError (x r : Quantity) : Quantity :=
  if x.isNaN || r.isNaN then .double Binary64.nan
  else if x.agrees r then .exact 0
  else if x.isFinite && r.isFinite then .exact (ratAbs (x.toRat - r.toRat))
  else .double (Binary64.infinity false)

/-- The distance in proportion to the reference; infinite when only the reference is zero. -/
def relativeError (x r : Quantity) : Quantity :=
  if x.isNaN || r.isNaN then .double Binary64.nan
  else if x.agrees r then .exact 0
  else if x.isFinite && r.isFinite && r.toRat != 0 then
    .exact (ratAbs ((x.toRat - r.toRat) / r.toRat))
  else .double (Binary64.infinity false)

/-- The distance in units of the last place of the reference, as a double. Both the reference and
the quotient have to be in the range of the doubles. -/
def ulpError (x r : Quantity) : Except Failure Binary64 :=
  if x.isNaN || r.isNaN then .ok Binary64.nan
  else if x.agrees r then .ok (Binary64.zero false)
  else if x.isFinite && r.isFinite then do
    let unit := (← r.toDouble).ulp
    Quantity.toDouble (.exact (ratAbs (x.toRat - r.toRat) / unit.toRat))
  else .ok (Binary64.infinity false)

end ExactNumerics
