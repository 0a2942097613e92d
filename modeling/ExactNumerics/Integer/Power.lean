import ExactNumerics.Integer.Root

/-!
# Powers that divide or equal a number

## Main definitions

* `Power`: a base with an exponent, as in a factorization.
* `multiplicity p n`: the largest `m` with `p ^ m ∣ n`, by repeated division.
* `maxDividingPower p n`: the same number, by repeated squaring of the divisor.
* `asPower a`: `a` as a power with the largest exponent, found by trying exponents downwards.
-/

namespace ExactNumerics

/-- A base with an exponent. -/
structure Power where
  /-- The number that is raised. -/
  base : Nat
  /-- The number of times it is multiplied. -/
  exponent : Nat
  deriving DecidableEq, Repr, Inhabited

namespace Power

/-- The number that a power denotes. -/
def value (p : Power) : Nat := power p.base p.exponent

end Power

/-! ### Powers that divide -/

/-- The largest `m` with `p ^ m ∣ n`, for `2 ≤ p` and `1 ≤ n`, by repeated division. -/
def multiplicity (p n : Nat) : Nat :=
  if h : 1 < p ∧ 0 < n ∧ n % p = 0 then multiplicity p (n / p) + 1 else 0
termination_by n
decreasing_by exact Nat.div_lt_self h.2.1 h.1

/-- Squares `q = p ^ e` for as long as the square still divides `n`. -/
def squareWhileDividing (n q e : Nat) : Power :=
  if h : 1 < q ∧ 0 < n ∧ n % (q * q) = 0 then squareWhileDividing n (q * q) (2 * e)
  else ⟨q, e⟩
termination_by n + 1 - q
decreasing_by
  have hle : q * q ≤ n := Nat.le_of_dvd h.2.1 (Nat.dvd_of_mod_eq_zero h.2.2)
  have hlt : q * 1 < q * q := Nat.mul_lt_mul_of_pos_left h.1 (by omega)
  omega

/-- The largest `m` with `p ^ m ∣ n`: the divisor is squared while it can be, and the rest is
found by repeated division. By convention the answer for `p = 1` is `1`. -/
def maxDividingPower (p n : Nat) : Nat :=
  if p = 1 then 1
  else if n % p ≠ 0 then 0
  else
    let top := squareWhileDividing n p 1
    top.exponent + multiplicity p (n / top.base)

/-! ### Powers that equal -/

/-- The largest exponent up to `e` of which `a` is an exact power. -/
def exactRootUpTo (a : Nat) : Nat → Power
  | 0 | 1 => ⟨a, 1⟩
  | e + 2 =>
    let (r, rest) := integerRootRemainder a (e + 2)
    if rest = 0 then ⟨r, e + 2⟩ else exactRootUpTo a (e + 1)

/-- Writes a positive `a` as a power with the largest exponent, without factoring it. -/
def asPower (a : Nat) : Power := exactRootUpTo a (bitLength a)

end ExactNumerics
