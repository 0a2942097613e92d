import ExactNumerics.Factor.Rho
import ExactNumerics.Factor.TrialDivision

/-!
# Factorization by splitting

A stack of powers still to be factored is worked off from the top. A prime is done, a factor two
or three is peeled off, a perfect power is replaced by its root, and anything else is split in two
by Pollard's rho. The primes found are collected at the end.

## Main definitions

* `Search.workOff`: works off a stack.
* `Search.factorBySplitting`, `Search.factor`: the factorization of a positive number.
-/

namespace ExactNumerics

namespace Search

/-- What one power on the stack contributes: the factors found, and the powers that replace it. -/
def reduce (m scale : Nat) : Search (Factorization × List Power) := do
  if m = 1 then return ([], [])
  else if ← isPrime m then return ([⟨m, scale⟩], [])
  else if m % 2 = 0 then return ([⟨2, scale⟩], [⟨m / 2, scale⟩])
  else if m % 3 = 0 then return ([⟨3, scale⟩], [⟨m / 3, scale⟩])
  else
    let root := asPower m
    if 1 < root.exponent then return ([], [⟨root.base, scale * root.exponent⟩])
    else
      let d ← split m
      return ([], [⟨m / d, scale⟩, ⟨d, scale⟩])

/-- Works off a stack in at most `steps` steps. -/
def workOff : Nat → List Power → Factorization → Search Factorization
  | _, [], found => return found
  | 0, _ :: _, _ => throw .outOfRounds
  | steps + 1, top :: stack, found => do
    let (factors, pending) ← reduce top.base top.exponent
    workOff steps (pending ++ stack) (found ++ factors)

/-- The number of steps that are enough for a positive number: each bit of it is responsible for at
most three. -/
def splittingSteps (n : Nat) : Nat := 3 * Nat.log2 n + 2

/-- The factorization of a positive number by splitting. The number and the count of its bits are
noted first. -/
def factorBySplitting (n : Nat) : Search Factorization := do
  note [n, (Nat.log2 n + 1 : Nat)]
  return (← workOff (splittingSteps n) [⟨n, 1⟩] []).merge

/-- The factorization of a positive number, small ones by trial division. -/
def factor (n : Nat) : Search Factorization := do
  if n < (← settings).trialDivisionLimit then trialDivision n else factorBySplitting n

end Search

end ExactNumerics
