import ExactNumerics.Factor.PerfectPower
import ExactNumerics.Binary64.Elementary

/-!
# Functions of the factorization

## Main definitions

* `Search.primeDivisors`, `Search.primeExponents`: the two columns of a factorization.
* `Search.totient`, `Search.moebius`, `Search.divisorSum`, `Search.divisors`, `Search.mangoldt`.
* `legendre a p`: the Legendre symbol, by Euler's criterion.
* `Search.isQuadraticResidue`: whether a number is a square modulo another.
-/

namespace ExactNumerics

-- powers of natural numbers are the ones of the core library
attribute [local instance (high)] instPowNat

/-- The product of a list. -/
def product (ns : List Nat) : Nat := ns.foldl (· * ·) 1

/-- The sum of the `k`-th powers of the divisors of the number with this factorization. -/
def divisorSumOf (k : Nat) (fs : Factorization) : Nat :=
  if k = 0 then product (fs.map fun p => p.exponent + 1)
  else if k = 1 then product (fs.map fun p => (p.base ^ (p.exponent + 1) - 1) / (p.base - 1))
  else product (fs.map fun p => (p.base ^ (k * (p.exponent + 1)) - 1) / (p.base ^ k - 1))

/-- The divisors of the number with this factorization, in increasing order. -/
def divisorsOf (fs : Factorization) : List Nat :=
  let extend (ds : List Nat) (p : Power) : List Nat :=
    let powers := (List.range (p.exponent + 1)).map (p.base ^ ·)
    ds.flatMap fun d => powers.map (d * ·)
  (fs.foldl extend [1]).mergeSort

/-- The Legendre symbol of `a` over an odd prime `p`: `0` when `p` divides `a`, `1` when `a` is a
nonzero square modulo `p`, and `-1` otherwise. -/
def legendre (a p : Nat) : Int :=
  let s := modularPower a ((p - 1) / 2) p
  if s = 0 then 0 else if s = 1 then 1 else -1

/-- The Legendre symbol, refused over numbers that are even or less than three. -/
def checkedLegendre (a p : Nat) : Except Failure Int :=
  if p < 3 || p % 2 = 0 then .error (.notOddPrime p) else .ok (legendre a p)

namespace Search

/-- The prime divisors of a positive number. -/
def primeDivisors (n : Nat) : Search (List Nat) := return (← factor n).map (·.base)

/-- The exponents of the prime divisors of a positive number. -/
def primeExponents (n : Nat) : Search (List Nat) := return (← factor n).map (·.exponent)

/-- How many numbers from `1` to `n` are coprime to `n`. -/
def totient (n : Nat) : Search Nat := do
  let ps ← primeDivisors n
  return n / product ps * product (ps.map (· - 1))

/-- The Möbius function. -/
def moebius (n : Nat) : Search Int := do
  let fs ← factor n
  if fs.any fun p => 1 < p.exponent then return 0
  else return if fs.length % 2 = 1 then -1 else 1

/-- The sum of the `k`-th powers of the divisors of a positive number. -/
def divisorSum (n k : Nat) : Search Nat := return divisorSumOf k (← factor n)

/-- The positive divisors of an integer in increasing order; none for zero. -/
def divisors (n : Int) : Search (List Nat) := do
  if n = 0 then return [] else return divisorsOf (← factor n.natAbs)

/-- The von Mangoldt function: `log p` on the powers of a prime `p`, and zero elsewhere. -/
def mangoldt (n : Nat) : Search Binary64 := do
  match ← primePower? n with
  | some p => return Binary64.logNat p.base
  | none => return Binary64.zero false

/-- Whether `a`, coprime to a positive `n`, is a square modulo `n`: it has to be one modulo every
odd prime divisor, and modulo the power of two as far as that matters. -/
def isQuadraticResidue (a : Int) (n : Nat) : Search Bool := do
  let ps := (← primeDivisors n).filter (· ≠ 2)
  let rec squares : List Nat → Search Bool
    | [] => return true
    | p :: rest => do
      match checkedLegendre (residue a p) p with
      | .ok s => if s = 1 then squares rest else return false
      | .error f => throw f
  if !(← squares ps) then return false
  else if n % 8 = 0 then return a % 8 == 1
  else if n % 4 = 0 then return a % 4 == 1
  else return true

end Search

end ExactNumerics
