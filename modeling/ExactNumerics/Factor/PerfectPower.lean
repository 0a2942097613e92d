import ExactNumerics.Factor.Splitting

/-!
# Perfect powers and prime powers

## Main definitions

* `Search.asPower`: a number as a power with the largest exponent, read off its factorization.
* `Search.perfectPower?`: the same if the exponent is at least two.
* `Search.primePower?`: a number as a power of a prime.
-/

namespace ExactNumerics

namespace Search

/-- Writes `a` as a power with the largest exponent: the greatest common divisor of the exponents
of its factorization. -/
def asPower (a : Nat) : Search Power := do
  if a < 2 then return ⟨a, 1⟩
  let fs ← factor a
  let r := fs.foldl (fun g p => Nat.gcd g p.exponent) 0
  return ⟨integerRoot a r, r⟩

/-- `a` as a power with the largest exponent, if that is at least two. -/
def perfectPower? (a : Nat) : Search (Option Power) := do
  let p ← asPower a
  return if 1 < p.base && 1 < p.exponent then some p else none

/-- `a` as a power of a prime, if it is one. -/
def primePower? (a : Nat) : Search (Option Power) := do
  if a < 2 then return none
  match ← factor a with
  | [p] => return some p
  | _ => return none

/-- Whether `a` is a power of an odd prime. -/
def isOddPrimePower (a : Nat) : Search Bool := do
  match ← primePower? a with
  | some p => return p.base % 2 == 1
  | none => return false

end Search

end ExactNumerics
