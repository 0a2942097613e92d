import ExactNumerics.Prime.Search

/-!
# Factorials and coefficients

Small factorials are read from a table, somewhat larger ones are accumulated from its end, and
the rest are products in which the factors are split by their parity, so that the operands stay
balanced.

## Main definitions

* `factorialTable size`: the factorials of `0`, …, `size - 1`.
* `strideProduct n s`: the product of `n`, `n - s`, `n - 2 * s`, … down to the last positive one.
* `factorialWith settings n`: the factorial of `n`.
* `exactQuotient a b`: a quotient that is refused if it is not exact.
* `Search.factorial`, `Search.binomial`, `Search.permutations`, `Search.multinomial`.
-/

namespace ExactNumerics

/-- The factorials of `0`, …, `size - 1`; the factorial of zero is always there. -/
def factorialTable (size : Nat) : Array Nat :=
  (List.range (size - 1)).foldl (fun table i => table.push (table.getD i 1 * (i + 1))) #[1]

/-- The product of `n`, `n - s`, `n - 2 * s`, … over the positive terms: the terms in even and in
odd places each have twice the stride. -/
def strideProduct (n s : Nat) : Nat :=
  if 0 < s ∧ s < n then strideProduct n (2 * s) * strideProduct (n - s) (2 * s) else n
termination_by (n, n - s)
decreasing_by
  · right; omega
  · left; omega

/-- The factorial of `n`, by the method that the settings choose for it. -/
def factorialWith (settings : Settings) (n : Nat) : Nat :=
  let table := factorialTable settings.factorialTableSize
  if h : n < table.size then table[n]
  else if n < settings.simpleFactorialCutoff then
    (List.range' table.size (n + 1 - table.size)).foldl (· * ·) (table.getD (table.size - 1) 1)
  else strideProduct n 1

/-- The quotient of two numbers, which has to be exact. -/
def exactQuotient (numerator denominator : Nat) : Except Failure Nat :=
  if denominator = 0 then .error (.unworded .zeroDivision)
  else if numerator % denominator = 0 then .ok (numerator / denominator)
  else .error (.inexactQuotient numerator denominator)

namespace Search

/-- The factorial of `n`. -/
def factorial (n : Nat) : Search Nat := return factorialWith (← settings) n

/-- The number of `k`-element subsets of a set of `n`. -/
def binomial (n k : Nat) : Search Nat := do
  if n < k then return 0
  exactQuotient (← factorial n) ((← factorial k) * (← factorial (n - k)))

/-- The number of ordered selections of `k` out of `n`. -/
def permutations (n k : Nat) : Search Nat := do
  if n < k then return 0
  exactQuotient (← factorial n) (← factorial (n - k))

/-- The product of the factorials of a list. -/
def factorialProduct : List Nat → Search Nat
  | [] => return 1
  | k :: ks => return (← factorial k) * (← factorialProduct ks)

/-- The number of ways to deal `n` objects into groups of the given sizes, which have to add up. -/
def multinomial (n : Nat) (ks : List Nat) : Search Nat := do
  if ks.foldl (· + ·) 0 ≠ n then throw (.wrongSum ks n)
  exactQuotient (← factorial n) (← factorialProduct ks)

end Search

end ExactNumerics
