import ExactNumerics.Prime.Table
import ExactNumerics.Random.Draws
import ExactNumerics.Settings.Basic

/-!
# Searches

A search is a computation that may draw numbers, look up a prime table, read the settings and note
what it does. The table, the settings and the limit on the digits of a noted integer are fixed for
the whole search; the draws move on, also when the search fails, and a footprint remembers what was
consulted.

## Main definitions

* `Footprint`: what a search has consulted.
* `Search`: the computations.
* `Search.draw`, `Search.settings`, `Search.table`, `Search.lookup`, `Search.note`: the only
  effects.
-/

namespace ExactNumerics

/-- What a search has consulted so far. -/
structure Footprint where
  /-- The settings were read. -/
  settings : Bool := false
  /-- The prime table was asked for, which includes asking for its limit. -/
  table : Bool := false
  /-- An entry of the prime table was read. -/
  entries : Bool := false
  deriving DecidableEq, Repr

namespace Search

/-- What is fixed during a search. -/
structure Surroundings where
  /-- The active settings. -/
  settings : Settings
  /-- The prime table. -/
  table : PrimeTable
  /-- The limit on the digits of the integers that are written. -/
  digits : DigitLimit := none

/-- What changes during a search. -/
structure Progress where
  /-- The source of draws. -/
  draws : Draws
  /-- What was consulted. -/
  footprint : Footprint := {}

end Search

/-- A computation that draws numbers, looks up primes and reads settings, and may fail. What it
drew and consulted is kept when it fails. -/
abbrev Search (α : Type) : Type :=
  ReaderT Search.Surroundings (ExceptT Failure (StateM Search.Progress)) α

namespace Search

/-- Runs a search. -/
def run {α : Type} (s : Search α) (surroundings : Surroundings) (progress : Progress) :
    Except Failure α × Progress :=
  s surroundings progress

/-- Refuses. -/
def fail {α : Type} (f : Failure) : Search α := throw f

/-- A number in `[lo, lo + width)`. -/
def draw (lo : Int) (width : Nat) : Search Int := fun _ p =>
  let (x, draws) := p.draws.uniform lo width
  (.ok x, { p with draws })

/-- The number of rounds after which a search that only draws gives up. -/
def patience : Search Nat := fun _ p => (.ok p.draws.patience, p)

/-- The active settings. -/
def settings : Search Settings := fun s p =>
  (.ok s.settings, { p with footprint.settings := true })

/-- The prime table, without reading an entry. -/
def table : Search PrimeTable := fun s p =>
  (.ok s.table, { p with footprint.table := true })

/-- The entry of a number in the prime table. -/
def lookup (n : Nat) : Search Bool := fun s p =>
  (.ok (s.table.isPrime n), { p with footprint.table := true, footprint.entries := true })

/-- The primes of the table below a bound. -/
def tablePrimesBelow (n : Nat) : Search (List Nat) := fun s p =>
  (.ok (s.table.primesBelow n), { p with footprint.table := true, footprint.entries := true })

/-- Notes some integers. The notes are made whether or not anyone keeps them, so an integer with too
many digits ends the search. -/
def note (is : List Int) : Search Unit := fun s p =>
  (if is.all s.digits.admits then .ok () else .error (.unworded .value), p)

end Search

end ExactNumerics
