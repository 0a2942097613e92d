import ExactNumerics.Prime.Primality
import ExactNumerics.Session.Operation

/-!
# Operations on primes

Primality, trials, draws and prime tables, under the names by which they are called.

## Main definitions

* `Catalogue.trialsFor`: the number of trials for a tolerance that is handed over.
* `Catalogue.primes`: the operations with their names.
-/

namespace ExactNumerics

namespace Catalogue

open Parameter Operation

/-! ### Primality -/

/-- A search from one integer. -/
def fromInteger (operation : String) (f : Int → Search Value) : Operation :=
  searchUnary {} (required "n") fun n => do f (← n.checkInteger operation "n")

/-- A search from one natural number. -/
def fromNatural (operation : String) (f : Nat → Search Value) : Operation :=
  searchUnary {} (required "n") fun n => do f (← n.checkNatural operation "n")

/-- A number of neighbouring primes. The count is checked first; the start is only looked at when
there is a first step. -/
def neighbours (operation step : String) (f : Int → Nat → Search (List Int)) : Operation :=
  searchBinary {} (required "z") (required "n") fun z n => do
    let count ← n.checkNatural operation "n"
    if count = 0 then return .list []
    return .integers (← f (← z.checkInteger step "n") count)

/-- Primality and the neighbouring primes. -/
def primality : List (String × Operation) :=
  [("is_prime", fromInteger "is_prime" fun n => return .truth (← Search.isPrimeInteger n)),
   ("next_prime", fromInteger "next_prime" fun n => return .integer (← Search.nextPrime n)),
   ("prev_prime", fromInteger "prev_prime" fun n => return .integer (← Search.previousPrime n)),
   ("next_primes", neighbours "next_primes" "next_prime" Search.nextPrimes),
   ("prev_primes", neighbours "prev_primes" "prev_prime" Search.previousPrimes),
   ("nth_prime", fromNatural "nth_prime" fun n => return .integer (← Search.nthPrime n)),
   ("random_prime", fromNatural "random_prime" fun n => return .integer (← Search.randomPrime n)),
   ("primes_below",
    searchUnary ⟨true, false⟩ (required "n") fun n => do
      return .naturals (← Search.primesBelow (← n.checkNatural "primes_below" "n")))]

/-! ### Trials -/

/-- The number of trials for a tolerance of any numeric kind. A rational number so small that the
double nearest to it is zero has no reciprocal. -/
def trialsFor (tolerance : Value) : Except Failure Nat := do
  let q ← tolerance.quantity
  if !(Quantity.exact 0).less q || !q.less (.exact 1) then
    throw (.toleranceOutside tolerance.plain)
  let t ← q.toDouble
  if t.magnitude = 0 then throw (.unworded .zeroDivision)
  trialCount t

/-- The number of trials for a tolerance, or for the one of the settings if none is given. -/
def trialsOrDefault : Value → Search Nat
  | .null => Search.trialCount
  | t => do return ← trialsFor t

/-- The verdict of repeated trials. The number of trials is found first. -/
def verdictOf (n tolerance : Value) : Search Verdict := do
  let k ← trialsOrDefault tolerance
  if k = 0 then return .veryProbablyPrime
  Search.repeatedTrials (← n.checkNatural "strong_pseudoprime_trial" "n") k

/-- Trials with drawn witnesses. -/
def trials : List (String × Operation) :=
  [("strong_pseudoprime_trials",
    searchUnary ⟨false, false⟩ (optional "tolerance") fun t => do
      let k ← trialsOrDefault t
      return .integer k),
   ("strong_pseudoprime_trial",
    searchUnary ⟨false, true⟩ (required "n") fun n => do
      return .verdict (← Search.strongTrial (← n.checkNatural "strong_pseudoprime_trial" "n"))),
   ("strong_pseudoprime_explanation",
    .search ⟨false, true⟩ fun call => do
      match ← call.bind [required "n", optional "rng", optional "tolerance"] with
      | [n, .null, t] => return .exact (.verdict (← verdictOf n t))
      | _ => throw (.unworded .type)),
   ("is_strong_pseudoprime",
    searchUnary ⟨false, true⟩ (required "n") fun n => do
      let v ← verdictOf n .null
      return .truth (v = .veryProbablyPrime))]

/-! ### Draws -/

/-- A draw from a range of integers. -/
def drawBetween (lo hi : Value) : Search Value := do
  let lo ← lo.checkInteger "random_integer" "lo"
  let hi ← hi.checkInteger "random_integer" "hi"
  if hi ≤ lo then throw (.emptyRange lo hi)
  return .integer (← Search.draw lo (hi - lo).toNat)

/-- The numbers that a scripted source takes from the items of its script. -/
def scriptNumbers (limit : DigitLimit) (script : Value) : Except Failure (List Int) := do
  (← script.items).mapM (Value.truncated limit)

/-- A new source of scripted draws. -/
def newSource (script : Value) : Errand Value := do
  let numbers ← scriptNumbers (← get).digits script
  let cell := (← get).sources.size
  modify fun d => { d with sources := d.sources.push (Draws.ofScript numbers) }
  return .source cell

/-- Draws and sources. -/
def draws : List (String × Operation) :=
  [("big_random",
    searchUnary ⟨false, true⟩ (required "n") fun n => do
      return .integer (← Search.draw 0 (← n.checkPositive "big_random" "n"))),
   ("random_integer", searchBinary ⟨false, true⟩ (required "lo") (required "hi") drawBetween),
   ("scripted_rng", errandUnary (required "script") newSource)]

/-! ### Prime tables -/

/-- The cell and the limit of a table. -/
def asTable : Value → Except Failure (Nat × Nat)
  | .table cell limit => .ok (cell, limit)
  | _ => .error (.unworded .type)

/-- A new table; without a limit it gets the one of the active settings. -/
def newTable : Value → Errand Value
  | .null => do
    let s ← Errand.settings
    let cell ← Errand.addTable (PrimeTable.ofLimit s.smallPrimeLimit s.two_le_smallPrimeLimit)
    return .table cell s.smallPrimeLimit
  | limit => do
    let limit ← limit.checkNatural "SieveOracle" "limit"
    return .table (← Errand.addTable (← PrimeTable.ofLimit? limit)) limit

/-- Whether a number lies in `[0, bound)`, or in `[0, bound]`. -/
def within (n : Value) (bound : Nat) (closed : Bool) : Except Failure Bool := do
  let q ← n.quantity
  let fromBelow := !q.isNaN && !q.less (.exact 0)
  return fromBelow && if closed then !(Quantity.exact bound).less q else q.less (.exact bound)

/-- The entry of a number in a table. A truth value is in range, but stands for no single entry, and
no other number that is not an integer stands for any. -/
def tableEntry (o n : Value) : Errand Value := do
  let (cell, limit) ← asTable o
  if !(← within n limit false) then throw (.outsideTable n.plain limit)
  let t ← Errand.readTable cell
  match n with
  | .integer i => return .truth (t.isPrime i.toNat)
  | .truth _ => throw (.unworded .value)
  | _ => throw (.unworded .position)

/-- The primes of a table below a bound, which is the limit if it is left out. -/
def tablePrimes (o n : Value) : Errand Value := do
  let (cell, limit) ← asTable o
  let bound := match n with
    | .null => .integer limit
    | v => v
  if !(← within bound limit true) then throw (.beyondTable bound.plain limit)
  let t ← Errand.readTable cell
  match ← bound.index? with
  | some i => return .naturals (t.primesBelow i.toNat)
  | none => throw (.unworded .type)

/-- The numbers of a table that are not prime. -/
def tableRest (o : Value) : Errand Value := do
  let (cell, _) ← asTable o
  return .naturals (← Errand.readTable cell).notPrimes

/-- The default table. -/
def defaultTableValue : Errand Value := do
  let cell ← Errand.defaultTable
  match (← get).tableAt cell with
  | some t => return .table cell t.limit
  | none => throw (.unworded .lookup)

/-- Replaces the default table; without a table it is made anew on demand. -/
def replaceDefaultTable : Value → Errand Value
  | .null => do
    modify fun d => { d with defaultTable := none }
    return .null
  | o => do
    let (cell, _) ← asTable o
    modify fun d => { d with defaultTable := some cell }
    return .null

/-- The numbers below a bound that are not prime, by a sieve of their own. -/
def sieved : Value → Except Failure Value
  | .integer i =>
    if i < 0 then Value.badValue
    else .ok (.naturals (Sieve.indicesOf true (Sieve.notPrime i.toNat)))
  | _ => Value.wrongType

/-- Prime tables. -/
def tables : List (String × Operation) :=
  [("sieve", errandUnary (optional "limit") newTable),
   ("sieve_repr",
    unaryWithin (required "oracle") fun limit o => return .text (← o.shown.written limit)),
   ("sieve_contains",
    binary (required "oracle") (required "n") fun o n => do
      let (_, limit) ← asTable o
      return .truth (← within n limit false)),
   ("sieve_is_prime", errandBinary (required "oracle") (required "n") tableEntry),
   ("sieve_primes", errandBinary (required "oracle") (optional "n") tablePrimes),
   ("sieve_not_prime", errandUnary (required "oracle") tableRest),
   ("get_default_oracle", errandNullary defaultTableValue),
   ("set_default_oracle", errandUnary (required "oracle") replaceDefaultTable),
   ("kernel_sieve", unary (required "limit") sieved)]

/-- The operations on primes. -/
def primes : List (String × Operation) := primality ++ trials ++ draws ++ tables

end Catalogue

end ExactNumerics
