import ExactNumerics.Binary64.Arithmetic

/-!
# Steps between doubles

Doubles in increasing order are numbered by their ordinals, so moving by a number of steps is
addition of integers, saturating at the infinities.

## Main definitions

* `Binary64.step x n`: the double `n` steps away.
* `Binary64.next`, `Binary64.previous`: one step up, one step down.
* `Binary64.ulp x`: the distance to the next double of larger magnitude.
-/

namespace ExactNumerics

namespace Binary64

/-- The integer nearest to `i` among the ordinals of doubles. -/
def clampOrdinal (i : Int) : Int :=
  if i < -(infinityOrdinal : Int) then -(infinityOrdinal : Int)
  else if (infinityOrdinal : Int) < i then infinityOrdinal
  else i

/-- The double `n` steps above `x`, saturating at the infinities; a NaN stays one. -/
def step (x : Binary64) (n : Int) : Binary64 :=
  if x.isNaN then nan else ofOrdinal (clampOrdinal (x.ordinal + n))

/-- The next double above. -/
def next (x : Binary64) : Binary64 := step x 1

/-- The next double below. -/
def previous (x : Binary64) : Binary64 := step x (-1)

/-- The distance from `|x|` to the next double of larger magnitude; at the largest finite double,
the distance to the one before it. -/
def ulp (x : Binary64) : Binary64 :=
  let y := x.abs
  if y.isNaN then nan
  else if y.isInfinite then infinity false
  else if y = greatest then sub y y.previous
  else sub y.next y

end Binary64

end ExactNumerics
