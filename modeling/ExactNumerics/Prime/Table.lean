import ExactNumerics.Prime.Sieve
import ExactNumerics.Failure

/-!
# Prime tables

A prime table answers primality below its limit. It is made with its limit only; the sieve runs
when the table is first read.

## Main definitions

* `PrimeTable`: a limit and the sieved table.
* `PrimeTable.ofLimit`: the table with a given limit. Tables of the usual limit share one sieve.
* `PrimeTable.covers`, `PrimeTable.isPrime`, `PrimeTable.primesBelow`.
-/

namespace ExactNumerics

/-- A table of the primes below a limit. -/
structure PrimeTable where
  /-- The number of entries. -/
  limit : Nat
  /-- The entries for `0` and `1` are always there. -/
  two_le_limit : 2 ≤ limit
  /-- The entries, sieved on first reading. -/
  entries : Thunk (Array Bool)
  /-- The entries are those of the sieve. -/
  entries_eq : entries.get = Sieve.notPrime limit

namespace PrimeTable

/-- The table with the given limit, with a sieve of its own. -/
def fresh (limit : Nat) (h : 2 ≤ limit) : PrimeTable :=
  ⟨limit, h, Thunk.mk fun _ => Sieve.notPrime limit, rfl⟩

/-- The usual limit leaves room for the entries of `0` and `1`. -/
theorem two_le_usualLimit : 2 ≤ 1000000 := by decide

/-- The table with the usual limit. -/
def usual : PrimeTable := fresh 1000000 two_le_usualLimit

/-- The table with the given limit. -/
def ofLimit (limit : Nat) (h : 2 ≤ limit) : PrimeTable :=
  if limit = 1000000 then usual else fresh limit h

/-- A table has the limit that it was made with. -/
@[simp]
theorem limit_ofLimit (limit : Nat) (h : 2 ≤ limit) : (ofLimit limit h).limit = limit := by
  unfold ofLimit
  split
  · subst_vars; rfl
  · rfl

/-- The table with the given limit, which has to be at least two. -/
def ofLimit? (limit : Nat) : Except Failure PrimeTable :=
  if h : 2 ≤ limit then .ok (ofLimit limit h) else .error (.tableTooSmall limit)

variable (t : PrimeTable)

/-- Whether a number has an entry. -/
def covers (n : Nat) : Bool := n < t.limit

/-- The entry of a covered number. -/
def isPrime (n : Nat) : Bool := !t.entries.get.getD n true

/-- The primes below `n`, for `n` up to the limit. -/
def primesBelow (n : Nat) : List Nat := Sieve.indicesOf false (t.entries.get.extract 0 n)

/-- The covered numbers that are not prime. -/
def notPrimes : List Nat := Sieve.indicesOf true t.entries.get

end PrimeTable

end ExactNumerics
