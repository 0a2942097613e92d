import ExactNumerics.Integer.Power

/-!
# Factorizations

A factorization is a list of powers, with the bases in strictly increasing order. Powers found in
any order are collected by sorting them and adding the exponents of equal bases. Collecting makes
sense for integers as well as for natural numbers, so it is defined for pairs of either.

## Main definitions

* `Factorization`: a list of powers.
* `Factorization.value`: the number that it denotes.
* `collectByBase`: pairs of bases and exponents, collected by base.
* `Factorization.merge`: powers in any order, collected by base.
-/

namespace ExactNumerics

/-- A list of powers. -/
abbrev Factorization := List Power

section Collect

variable {ι : Type} [DecidableEq ι] [LT ι] [DecidableLT ι] [LE ι] [DecidableLE ι] [Add ι]

/-- Whether a pair comes before another one: by base, then by exponent. -/
def precedes (p q : ι × ι) : Bool := p.1 < q.1 || (p.1 = q.1 && p.2 ≤ q.2)

/-- Adds the exponents of neighbours with equal bases. -/
def addNeighbours : List (ι × ι) → List (ι × ι)
  | [] => []
  | p :: rest =>
    match addNeighbours rest with
    | q :: merged => if p.1 = q.1 then (p.1, p.2 + q.2) :: merged else p :: q :: merged
    | [] => [p]

/-- Sorts pairs by base and adds the exponents of equal bases. -/
def collectByBase (pairs : List (ι × ι)) : List (ι × ι) := addNeighbours (pairs.mergeSort precedes)

end Collect

namespace Factorization

/-- The product of the powers. -/
def value (fs : Factorization) : Nat := fs.foldl (fun product p => product * p.value) 1

/-- Sorts powers by base and adds the exponents of equal bases. -/
def merge (fs : Factorization) : Factorization :=
  (collectByBase (fs.map fun p => (p.base, p.exponent))).map fun (b, e) => ⟨b, e⟩

end Factorization

end ExactNumerics
