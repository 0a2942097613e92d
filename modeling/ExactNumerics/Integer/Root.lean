/-!
# Integer roots

The greatest `r` with `r ^ y ≤ x`, by Newton's iteration on natural numbers. It starts from a
power of two above the root, decreases while it can, and stops at the root; a guard after it
steps down from any value that is still too large.

## Main definitions

* `bitLength`: the number of binary digits.
* `power`: exponentiation that also takes an enormous exponent of `0` or `1`.
* `newtonRoot x y`: the iteration with the guard after it.
* `squareRoot x`, `integerRoot x y`, `integerRootRemainder x y`, `perfectSquare? x`.
-/

namespace ExactNumerics

-- powers of natural numbers are the ones of the core library
attribute [local instance (high)] instPowNat

/-- The number of binary digits of `n`; zero has none. -/
def bitLength (n : Nat) : Nat := if n = 0 then 0 else Nat.log2 n + 1

/-- `b ^ e`, where the powers of `0` and `1` are read off whatever the exponent. -/
def power (b e : Nat) : Nat :=
  if b = 1 then 1 else if b = 0 then if e = 0 then 1 else 0 else b ^ e

/-- The shortcuts do not change the power. -/
theorem power_eq (b e : Nat) : power b e = b ^ e := by
  unfold power
  by_cases h1 : b = 1
  · simp [h1]
  by_cases h0 : b = 0
  · by_cases he : e = 0
    · simp [h0, he]
    · simp [h0, he, Nat.zero_pow (Nat.pos_of_ne_zero he)]
  · simp [h1, h0]

/-! ### Newton's iteration -/

/-- One step of Newton's iteration for the `y`-th root of `x`. -/
def newtonStep (x y r : Nat) : Nat := ((y - 1) * r + x / r ^ (y - 1)) / y

/-- Newton's iteration for as long as it decreases. -/
def newtonDescent (x y r : Nat) : Nat :=
  if newtonStep x y r < r then newtonDescent x y (newtonStep x y r) else r
termination_by r

/-- A power of two that lies above the `y`-th root of `x`. -/
def newtonStart (x y : Nat) : Nat := 2 ^ ((bitLength x + (y - 1)) / y)

/-- The greatest number up to `r` whose `y`-th power does not exceed `x`. -/
def stepDownToRoot (x y : Nat) : Nat → Nat
  | 0 => 0
  | r + 1 => if x < (r + 1) ^ y then stepDownToRoot x y r else r + 1

/-- The `y`-th root of `x` by Newton's iteration, for `x` and `y` from two on. -/
def newtonRoot (x y : Nat) : Nat := stepDownToRoot x y (newtonDescent x y (newtonStart x y))

/-! ### Roots -/

/-- The greatest `r` with `r * r ≤ x`. -/
def squareRoot (x : Nat) : Nat := if x < 2 then x else newtonRoot x 2

/-- The greatest `r` with `r ^ y ≤ x`, for a positive `y`. -/
def integerRoot (x y : Nat) : Nat :=
  if x < 2 || y = 1 then x
  else if y = 2 then squareRoot x
  else if bitLength x ≤ y then 1
  else newtonRoot x y

/-- The integer root together with what it leaves over. -/
def integerRootRemainder (x y : Nat) : Nat × Nat :=
  let r := integerRoot x y
  (r, x - power r y)

/-- The root of a perfect square. -/
def perfectSquare? (x : Nat) : Option Nat :=
  let r := squareRoot x
  if r * r = x then some r else none

end ExactNumerics
