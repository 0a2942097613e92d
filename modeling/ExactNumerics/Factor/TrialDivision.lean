import ExactNumerics.Factor.Factorization
import ExactNumerics.Prime.Primality

/-!
# Trial division

The primes are tried in increasing order. Each one that divides is divided out at once, and what
is left is the last factor as soon as it is prime.

## Main definitions

* `Search.divideFrom`: trial division from a given prime on.
* `Search.trialDivision`: the factorization of a positive number.
-/

namespace ExactNumerics

-- powers of natural numbers are the ones of the core library
attribute [local instance (high)] instPowNat

namespace Search

/-- Adds to `found` the factors of `n` from the prime `p` on. Each round moves to a larger prime, so
`n` rounds are enough. -/
def divideFrom : Nat → Nat → Nat → Factorization → Search Factorization
  | 0, _, _, _ => throw .outOfRounds
  | rounds + 1, p, n, found => do
    if n < p then return found
    let last ← if n = p then pure true else isPrime n
    if last then return found ++ [⟨n, 1⟩]
    if n % p = 0 then
      let m := maxDividingPower p n
      let q ← nextPrime p
      divideFrom rounds q.toNat (n / p ^ m) (found ++ [⟨p, m⟩])
    else
      let q ← nextPrime p
      divideFrom rounds q.toNat n found

/-- The factorization of a positive number by trial division. -/
def trialDivision (n : Nat) : Search Factorization := divideFrom n 2 n []

end Search

end ExactNumerics
