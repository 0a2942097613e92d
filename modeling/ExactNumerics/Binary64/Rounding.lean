import ExactNumerics.Binary64.Basic

/-!
# Rounding to the nearest double

One rounding rule serves every exact operation: a non-negative quotient of naturals, measured in
units of `2 ^ -1074`, goes to the nearest magnitude, and a tie goes to the even one.

In the binade of spacing `2 ^ k` units the magnitudes run through `k * 2 ^ 52 + s` with
significands `s` from `2 ^ 52` to `2 ^ 53`. A significand that rounds up to `2 ^ 53` lands on the
first magnitude of the next binade, so no carry has to be treated apart; and the parity of a
magnitude is that of its significand.

## Main definitions

* `nearestEven n d`: the integer nearest to `n / d`.
* `Binary64.roundMagnitude n d`: the magnitude nearest to `n / d` units.
* `Binary64.ofRat`, `Binary64.ofRat?`: the double nearest to a rational number.
-/

namespace ExactNumerics

-- powers of natural numbers are the ones of the core library
attribute [local instance (high)] instPowNat

/-- The natural number nearest to `n / d`; of two equally near ones, the even one. -/
def nearestEven (n d : Nat) : Nat :=
  let q := n / d
  let r := n % d
  if 2 * r < d then q else if d < 2 * r then q + 1 else q + q % 2

namespace Binary64

/-- The spacing exponent of the binade that holds `n / d` units. -/
def roundingSpacing (n d : Nat) : Nat := Nat.log2 (n / d) - 52

/-- The magnitude nearest to `n / d` units, ties to even; infinity past the midpoint above the
largest finite double. -/
def roundMagnitude (n d : Nat) : Nat :=
  let k := roundingSpacing n d
  min infinityOrdinal (k * 2 ^ (52 : Nat) + nearestEven n (d * 2 ^ k))

/-- The double of the given sign nearest to `n / d` units. -/
def roundUnits (negative : Bool) (n d : Nat) : Binary64 := ofMagnitude negative (roundMagnitude n d)

/-- The double nearest to a whole number of units; the zero is positive. -/
def ofUnits (u : Int) : Binary64 := roundUnits (decide (u < 0)) u.natAbs 1

/-- The double nearest to a rational number; infinite when the number is out of range. -/
def ofRat (q : Rat) : Binary64 :=
  roundUnits (decide (q.num < 0)) (q.num.natAbs * unitsPerOne) q.den

/-- The double nearest to a rational number, or `none` when the number is out of range. -/
def ofRat? (q : Rat) : Option Binary64 :=
  let x := ofRat q
  if x.isInfinite then none else some x

/-- The double nearest to an integer, or `none` when the integer is out of range. -/
def ofInt? (i : Int) : Option Binary64 := ofRat? i

end Binary64

end ExactNumerics
