/-!
# The sieve of Eratosthenes

The table below a limit tells for each number whether it is *not* prime. It starts with `0` and
`1` marked; then for each `p` from `2` on whose square is below the limit, if `p` is not marked,
the multiples of `p` from `p * p` on are.

## Main definitions

* `Sieve.markMultiples`: marks every `step`-th entry.
* `Sieve.markFrom`: the marking for all candidates from `p` on.
* `Sieve.notPrime limit`: the table.
-/

namespace ExactNumerics

namespace Sieve

/-- Marks the entries `i`, `i + step`, `i + 2 * step`, … of a table. -/
def markMultiples (step i : Nat) (table : Array Bool) : Array Bool :=
  if h : 0 < step ∧ i < table.size then
    markMultiples step (i + step) (table.set i true h.2)
  else table
termination_by table.size - i
decreasing_by rw [Array.size_set]; omega

/-- Marking does not change the size of a table. -/
@[simp]
theorem size_markMultiples (step i : Nat) (table : Array Bool) :
    (markMultiples step i table).size = table.size := by
  fun_induction markMultiples step i table with
  | case1 i table h ih => rw [ih, Array.size_set]
  | case2 => rfl

/-- Marks the multiples of every unmarked candidate from `p` on. -/
def markFrom (limit p : Nat) (table : Array Bool) : Array Bool :=
  if p * p < limit then
    markFrom limit (p + 1) (if table.getD p true then table else markMultiples p (p * p) table)
  else table
termination_by limit - p
decreasing_by
  rename_i h
  have : p ≤ p * p := Nat.le_mul_self p
  omega

/-- The table of the numbers below `limit` that are not prime. -/
def notPrime (limit : Nat) : Array Bool :=
  markFrom limit 2 (Array.ofFn fun i : Fin limit => decide (i.val < 2))

/-- The indices of the entries of a table that equal `b`, in increasing order. -/
def indicesOf (b : Bool) (table : Array Bool) : List Nat :=
  (List.range table.size).filter fun i => table.getD i true == b

end Sieve

end ExactNumerics
