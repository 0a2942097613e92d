import ExactNumerics.Prime.StrongPseudoprime

/-!
# Primality and the neighbouring primes

A number with an entry in the prime table is looked up there; a larger one is submitted to strong
pseudoprime trials. Trials never reject a prime, so the scans below never step over one.

The scan upwards from `n` looks at no more than `n` candidates: there is a prime between `n` and
`2 * n`. The scan downwards ends at three at the latest.

## Main definitions

* `Search.isPrime`, `Search.isPrimeInteger`: primality of a natural number, and of the absolute
  value of an integer.
* `Search.nextPrime`, `Search.previousPrime`: the neighbouring primes of an integer, where the
  negated primes count as well.
* `Search.nextPrimes`, `Search.previousPrimes`, `Search.nthPrime`, `Search.randomPrime`,
  `Search.primesBelow`.
-/

namespace ExactNumerics

namespace Search

/-! ### One number -/

/-- The outcome of as many trials as the settings ask for. -/
def passesTrials (n : Nat) : Search Bool := do
  let k ← trialCount
  return (← repeatedTrials n k) = .veryProbablyPrime

/-- Whether `n` is prime: certain below the limit of the table and below four, very probable
beyond. -/
def isPrime (n : Nat) : Search Bool := do
  let t ← table
  if t.covers n then lookup n
  else if n < 4 then return decide (2 ≤ n)
  else passesTrials n

/-- Whether the absolute value of an integer is prime. -/
def isPrimeInteger (n : Int) : Search Bool := isPrime n.natAbs

/-! ### Neighbouring primes -/

/-- The first prime among `candidate`, `candidate + 2`, …, looking at up to as many candidates as
the first argument says. -/
def scanUp : Nat → Nat → Search Nat
  | 0, _ => throw .outOfRounds
  | more + 1, candidate => do
    if ← isPrime candidate then return candidate else scanUp more (candidate + 2)

/-- The first prime among `candidate`, `candidate - 2`, …, or the last candidate above one. -/
def scanDown (candidate : Nat) : Search Nat := do
  if ← isPrime candidate then return candidate
  else if candidate ≤ 3 then return candidate
  else scanDown (candidate - 2)
termination_by candidate

/-- The least prime above a natural number. -/
def primeAbove (n : Nat) : Search Int := do
  if n < 2 then return 2
  else if n = 2 then return 3
  else return (← scanUp n (if n % 2 = 0 then n + 1 else n + 2))

/-- The greatest prime below a natural number, where the negated primes count. -/
def primeBelow (n : Nat) : Search Int := do
  if n = 3 then return 2
  else if n < 3 then return -2
  else return (← scanDown (if n % 2 = 0 then n - 1 else n - 2))

/-- The least prime above an integer, where the negated primes count. -/
def nextPrime (n : Int) : Search Int := do
  if n < 0 then return -(← primeBelow n.natAbs) else primeAbove n.natAbs

/-- The greatest prime below an integer, where the negated primes count. -/
def previousPrime (n : Int) : Search Int := do
  if n < 0 then return -(← primeAbove n.natAbs) else primeBelow n.natAbs

/-! ### Several primes -/

/-- The results of `count` steps from `p`. -/
def chain (step : Int → Search Int) : Nat → Int → Search (List Int)
  | 0, _ => return []
  | count + 1, p => do
    let q ← step p
    return q :: (← chain step count q)

/-- The `count` primes after `z`. -/
def nextPrimes (z : Int) (count : Nat) : Search (List Int) := chain nextPrime count z

/-- The `count` primes before `z`, the nearest first. -/
def previousPrimes (z : Int) (count : Nat) : Search (List Int) := chain previousPrime count z

/-- The prime that is `count` primes after `p`. -/
def advance : Nat → Int → Search Int
  | 0, p => return p
  | count + 1, p => do advance count (← nextPrime p)

/-- The `n`-th prime, counted from zero. -/
def nthPrime (n : Nat) : Search Int := advance n 2

/-! ### Primes of a range -/

/-- The primes below `n`, read from the table. -/
def primesBelow (n : Nat) : Search (List Nat) := do
  let t ← table
  if n ≤ t.limit then tablePrimesBelow n else throw (.beyondTable n t.limit)

/-- Draws numbers from `[2, n)` until one is prime. -/
def drawPrime (n : Nat) : Nat → Search Int
  | 0 => throw .outOfRounds
  | more + 1 => do
    let candidate ← draw 2 (n - 2)
    if ← isPrimeInteger candidate then return candidate else drawPrime n more

/-- A uniformly drawn prime below `n`. -/
def randomPrime (n : Nat) : Search Int := do
  if n ≤ 2 then throw (.noPrimeBelow n)
  drawPrime n (← patience)

end Search

end ExactNumerics
