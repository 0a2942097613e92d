import ExactNumerics.Prime.Search
import ExactNumerics.Binary64.Decimal
import ExactNumerics.Integer.Residue

/-!
# Strong pseudoprime trials

A trial of `n` draws a witness `a`. If `a` shares a factor with `n`, that factor is the verdict.
Otherwise, with `n - 1 = 2 ^ ν * m` and `m` odd, it looks at the squarings of `a ^ m`: reaching
`1` from anything but `-1` yields a factor, not reaching it shows that `n` is composite.

The number of trials for a tolerance `t` is the base-two logarithm of `1 / t` rounded up, where
both the reciprocal and the logarithm are doubles.

## Main definitions

* `Verdict`: the outcome of trials.
* `strongTrial n a`: the trial of `n` with the witness `a`.
* `trialCount t`: the number of trials for a tolerance.
* `Search.strongTrial`, `Search.repeatedTrials`: trials with drawn witnesses.
-/

namespace ExactNumerics

-- powers of natural numbers are the ones of the core library
attribute [local instance (high)] instPowNat

/-- The outcome of one or more trials. -/
inductive Verdict where
  /-- One trial found nothing against the number being prime. -/
  | probablyPrime
  /-- No trial of a series found anything against the number being prime. -/
  | veryProbablyPrime
  /-- The number is composite. -/
  | composite
  /-- The number has this proper divisor. -/
  | divisor (d : Nat)
  deriving DecidableEq, Repr

/-! ### One trial -/

/-- The factors of two of a positive number, and its odd part. -/
def splitTwos (n : Nat) : Nat × Nat :=
  if 0 < n ∧ n % 2 = 0 then
    let (ν, m) := splitTwos (n / 2)
    (ν + 1, m)
  else (0, n)
termination_by n
decreasing_by omega

/-- Squares `b` modulo `n` up to `ν` times, until it is `1`. Returns the last two values. -/
def squareUntilOne (n : Nat) : Nat → Nat → Nat → Nat × Nat
  | 0, previous, b => (previous, b)
  | ν + 1, previous, b => if b = 1 then (previous, b) else squareUntilOne n ν b (b * b % n)

/-- The trial of `n` with the witness `a`, for `2 ≤ a < n`. -/
def strongTrial (n a : Nat) : Verdict :=
  let g := Nat.gcd a n
  if 1 < g then .divisor g
  else
    let (ν, m) := splitTwos (n - 1)
    let b := modularPower a m n
    if b = 1 then .probablyPrime
    else
      let (previous, last) := squareUntilOne n ν b b
      if last ≠ 1 then .composite
      else if previous = n - 1 then .probablyPrime
      else .divisor (Nat.gcd (previous + 1) n)

/-! ### The number of trials -/

/-- How far above `2 ^ k`, in units of its last place, a double may be for its base-two logarithm
to round to `k`. The logarithm of `2 ^ k * (1 + f * 2 ^ -52)` is about `k + f * 2 ^ -52 / ln 2`,
and `k` has half a last place of `2 ^ (log₂ k - 53)`, so `f` may be up to
`ln 2 / 2 * 2 ^ log₂ k`. -/
def logarithmSlack (k : Nat) : Nat := if k = 0 then 0 else 2 ^ Nat.log2 k * 34657359 / 100000000

/-- The base-two logarithm of a double from `1.0` up, as a double, rounded up. -/
def logarithmCeiling (x : Binary64) : Nat :=
  let k := x.magnitude / 2 ^ (52 : Nat) - 1023
  if x.magnitude % 2 ^ (52 : Nat) ≤ logarithmSlack k then k else k + 1

/-- The number of trials for a tolerance in `(0, 1)`. The reciprocal of a tolerance below
`2 ^ -1024` is out of range. -/
def trialCount (tolerance : Binary64) : Except Failure Nat :=
  let x := Binary64.one.div tolerance
  if x.isFinite then .ok (logarithmCeiling x) else .error (.unworded .overflow)

/-- The number of trials for a double that may lie outside `(0, 1)`. -/
def checkedTrialCount (tolerance : Binary64) : Except Failure Nat :=
  if (Binary64.zero false).lt tolerance && tolerance.lt Binary64.one then trialCount tolerance
  else .error (.toleranceOutside tolerance.toText)

/-! ### Trials with drawn witnesses -/

namespace Search

/-- The trial of `n ≥ 4` with a drawn witness. -/
def strongTrial (n : Nat) : Search Verdict := do
  if n < 4 then throw (.trialTooSmall n)
  let a ← draw 2 (n - 2)
  return ExactNumerics.strongTrial n a.toNat

/-- The number of trials for the tolerance of the settings. -/
def trialCount : Search Nat := do
  match checkedTrialCount (← settings).tolerance with
  | .ok k => return k
  | .error f => throw f

/-- Repeats the trial of `n` up to `k` times, until one is not in favour of a prime. -/
def repeatedTrials (n : Nat) : Nat → Search Verdict
  | 0 => return .veryProbablyPrime
  | k + 1 => do
    let v ← strongTrial n
    if v = .probablyPrime then repeatedTrials n k else return v

end Search

end ExactNumerics
