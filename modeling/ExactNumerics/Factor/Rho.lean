import ExactNumerics.Factor.Factorization
import ExactNumerics.Prime.Search

/-!
# Pollard's rho

From a drawn seed, `x` runs through the orbit of `x ↦ x² + 1` modulo `n` at one step a round and
`y` at two. Modulo a prime divisor `p` the two meet within `p` rounds, and then `p` divides
`gcd (x - y) n`. The least prime divisor of a composite is at most its square root.

## Main definitions

* `rhoSearch`: the rounds.
* `rho n seed`: a proper divisor of `n`, if the rounds from this seed find one.
* `Search.rho`: the same with a drawn seed.
* `Search.split`: repeated attempts, of which the failed ones are noted.
-/

namespace ExactNumerics

/-- One step of the orbit. -/
def rhoStep (n x : Nat) : Nat := (x * x + 1) % n

/-- Runs up to `rounds` rounds and returns the first proper common divisor of `x - y` and `n`. -/
def rhoSearch (n : Nat) : Nat → Nat → Nat → Option Nat
  | 0, _, _ => none
  | rounds + 1, x, y =>
    let x := rhoStep n x
    let y := rhoStep n (rhoStep n y)
    let g := Int.gcd (x - y) n
    if 1 < g && g < n then some g
    else if g = n then none
    else rhoSearch n rounds x y

/-- A proper divisor of `n`, or `none` when the two pointers met first or the rounds ran out. -/
def rho (n seed : Nat) : Option Nat := rhoSearch n (squareRoot n + 1) seed seed

namespace Search

/-- One attempt to split `n ≥ 1`, from a drawn seed. -/
def rho (n : Nat) : Search (Option Nat) := do
  if n = 0 then throw (.notPositive "big_random" "n")
  let seed ← draw 0 n
  return ExactNumerics.rho n seed.toNat

/-- The last `attempts` of a total number of attempts to split `n`. An attempt that failed is noted,
by its place among them all. -/
def splitWithin (n total : Nat) : Nat → Search (Option Nat)
  | 0 => return none
  | attempts + 1 => do
    match ← rho n with
    | some d => return some d
    | none =>
      note [n, (total - attempts : Nat), total]
      splitWithin n total attempts

/-- A proper divisor of a composite, within the number of attempts of the settings. -/
def split (n : Nat) : Search Nat := do
  let attempts := (← settings).splitAttempts
  match ← splitWithin n attempts attempts with
  | some d => return d
  | none =>
    note [n, attempts]
    throw (.unsplit n attempts)

end Search

end ExactNumerics
