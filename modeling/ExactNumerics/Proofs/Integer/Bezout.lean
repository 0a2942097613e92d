import ExactNumerics.Integer.Bezout
import Mathlib.Algebra.Ring.Int.Defs
import Mathlib.Tactic.LinearCombination
import Mathlib.Tactic.Ring

/-!
# Bézout coefficients

Each of the two rows of the extended Euclidean algorithm holds a remainder together with
coefficients that yield it, `r = a * u + b * v`. A step replaces the rows by the second one and by a
difference of both, which keeps the equation and the greatest common divisor of the remainders. The
last nonzero remainder is that divisor up to its sign, and the coefficients take the sign along.

Quotients are rounded down, but the invariant holds for any quotient. Rounding matters for the
termination only.

A further integer is taken in by the coefficients of two: those of the divisor so far and of the new
integer. All coefficients found before are multiplied by the first of them, which multiplies what
they combine to, and the second one is put at the end.

## Main definitions

* `combination cs xs` — the sum of the products of coefficients and integers
* `IsBezout xs cs g` — the coefficients combine the integers to their greatest common divisor

## Main results

* `bezoutRows_eq` — the invariant, and what it says at the end
* `bezoutPair_eq` — the coefficients of two integers
* `IsBezout.extend`, `IsBezout.foldl` — one more integer, and any number of them
* `bezout_coefficients` — the coefficients of any number of integers
-/

namespace ExactNumerics

variable {a b : ℤ}

/-- **The rows.** From two rows that satisfy the equation, the coefficients of the greatest common
divisor of their remainders. -/
theorem bezoutRows_eq {r u v r' u' v' : ℤ} (h : r = a * u + b * v) (h' : r' = a * u' + b * v') :
    a * (bezoutRows r u v r' u' v').1 + b * (bezoutRows r u v r' u' v').2 = Int.gcd r r' := by
  fun_induction bezoutRows r u v r' u' v' with
  | case1 r u v u' v' hneg =>
    have habs : (Int.gcd r 0 : ℤ) = -r := by rw [Int.gcd_zero_right]; omega
    rw [habs, h]
    ring
  | case2 r u v u' v' hnn =>
    have habs : (Int.gcd r 0 : ℤ) = r := by rw [Int.gcd_zero_right]; omega
    rw [habs, h]
  | case3 r u v r' u' v' hne q ih =>
    have hrow : r - q * r' = a * (u - q * u') + b * (v - q * v') := by
      linear_combination h - q * h'
    rw [ih h' hrow, Int.gcd_sub_mul_right_right, Int.gcd_comm]

/-- **The coefficients of two integers.** -/
theorem bezoutPair_eq (a b : ℤ) :
    a * (bezoutPair a b).1 + b * (bezoutPair a b).2 = Int.gcd a b :=
  bezoutRows_eq (by ring) (by ring)

/-! ### Any number of integers -/

section List

variable {xs cs : List ℤ} {g : ℕ} {d : ℤ}

/-- The sum of the products of coefficients and integers. -/
def combination (cs xs : List ℤ) : ℤ := (List.zipWith (· * ·) cs xs).sum

/-- The coefficients are as many as the integers and combine them to a natural number, which is
their greatest common divisor: what divides it are the common divisors. -/
structure IsBezout (xs cs : List ℤ) (g : ℕ) : Prop where
  /-- There is one coefficient for each integer. -/
  length_eq : cs.length = xs.length
  /-- They combine the integers to the divisor. -/
  combination_eq : combination cs xs = g
  /-- It is the greatest common divisor. -/
  dvd_iff : ∀ d : ℤ, d ∣ g ↔ ∀ x ∈ xs, d ∣ x

theorem combination_map_mul (cs xs : List ℤ) (s : ℤ) :
    combination (cs.map (· * s)) xs = combination cs xs * s := by
  induction cs generalizing xs with
  | nil => simp [combination]
  | cons c cs ih =>
    cases xs with
    | nil => simp [combination]
    | cons x xs =>
      have ih := ih xs
      simp only [combination, List.map_cons, List.zipWith_cons_cons, List.sum_cons] at ih ⊢
      rw [ih]
      ring

theorem combination_append_singleton (h : cs.length = xs.length) (c x : ℤ) :
    combination (cs ++ [c]) (xs ++ [x]) = combination cs xs + c * x := by
  rw [combination, List.zipWith_append h, List.sum_append]
  simp [combination]

namespace IsBezout

/-- The sign of an integer is a coefficient for it alone. -/
theorem singleton (a : ℤ) : IsBezout [a] [if a < 0 then -1 else 1] a.natAbs where
  length_eq := rfl
  combination_eq := by
    simp only [combination, List.zipWith_cons_cons, List.zipWith_nil_left, List.sum_cons,
      List.sum_nil]
    split <;> omega
  dvd_iff d := by rw [Int.dvd_natAbs, List.forall_mem_singleton]

/-- **One more integer.** -/
theorem extend (h : IsBezout xs cs g) (b : ℤ) :
    IsBezout (xs ++ [b]) (bezoutExtend g cs b).2 (bezoutExtend g cs b).1 where
  length_eq := by simp [bezoutExtend, h.length_eq]
  combination_eq := by
    have hlength : (cs.map (· * (bezoutPair g b).1)).length = xs.length := by
      rw [List.length_map, h.length_eq]
    calc combination (bezoutExtend g cs b).2 (xs ++ [b])
        = combination (cs.map (· * (bezoutPair g b).1)) xs + (bezoutPair g b).2 * b :=
          combination_append_singleton hlength _ _
      _ = g * (bezoutPair g b).1 + b * (bezoutPair g b).2 := by
          rw [combination_map_mul, h.combination_eq]
          ring
      _ = Int.gcd g b := bezoutPair_eq g b
  dvd_iff d := by
    have hgcd : d ∣ (Int.gcd g b : ℤ) ↔ d ∣ g ∧ d ∣ b := Int.dvd_coe_gcd_iff
    rw [List.forall_mem_append, List.forall_mem_singleton, ← h.dvd_iff, ← hgcd]
    rfl

/-- **Any number of further integers**, one after the other. -/
theorem foldl (h : IsBezout xs cs g) (bs : List ℤ) :
    IsBezout (xs ++ bs) (bs.foldl (fun (g, cs) b => bezoutExtend g cs b) (g, cs)).2
      (bs.foldl (fun (g, cs) b => bezoutExtend g cs b) (g, cs)).1 := by
  induction bs generalizing xs cs g with
  | nil => rwa [List.append_nil]
  | cons b bs ih =>
    rw [List.foldl_cons, List.append_cons]
    exact ih (h.extend b)

/-- The greatest common divisor is determined by what divides it. -/
theorem unique (h : IsBezout xs cs g) {g' : ℕ} (h' : ∀ d : ℤ, d ∣ g' ↔ ∀ x ∈ xs, d ∣ x) :
    g = g' := by
  refine Nat.dvd_antisymm ?_ ?_
  · exact Int.natCast_dvd_natCast.mp ((h' g).mpr ((h.dvd_iff g).mp dvd_rfl))
  · exact Int.natCast_dvd_natCast.mp ((h.dvd_iff g').mpr ((h' g').mp dvd_rfl))

end IsBezout

/-- **What divides the greatest common divisor.** -/
theorem dvd_gcdList_iff (xs : List ℤ) (d : ℤ) : d ∣ gcdList xs ↔ ∀ x ∈ xs, d ∣ x := by
  -- the fold starts at zero, which everything divides
  suffices h : ∀ g : ℕ, d ∣ (xs.foldl (fun g x => Nat.gcd g x.natAbs) g : ℕ) ↔
      d ∣ g ∧ ∀ x ∈ xs, d ∣ x by
    rw [gcdList, h 0]
    exact and_iff_right (dvd_zero d)
  induction xs with
  | nil => simp
  | cons x xs ih =>
    intro g
    have hgcd : d ∣ (Nat.gcd g x.natAbs : ℤ) ↔ d ∣ g ∧ d ∣ x := by
      show d ∣ (Int.gcd g x : ℤ) ↔ _
      exact Int.dvd_coe_gcd_iff
    rw [List.foldl_cons, ih, hgcd, List.forall_mem_cons, and_assoc]

/-- **The coefficients of any number of integers.** There is one for each integer, zeros and
negative integers included, and they combine the integers to their greatest common divisor, which is
a natural number. The coefficients of two integers do the same. -/
theorem bezout_coefficients (a : ℤ) (bs : List ℤ) :
    (bezoutList a bs).length = bs.length + 1 ∧
      combination (bezoutList a bs) (a :: bs) = gcdList (a :: bs) ∧
      (∀ d : ℤ, d ∣ gcdList (a :: bs) ↔ ∀ x ∈ a :: bs, d ∣ x) ∧
      ∀ b, a * (bezoutPair a b).1 + b * (bezoutPair a b).2 = Int.gcd a b := by
  have h := (IsBezout.singleton a).foldl bs
  have hdvd := dvd_gcdList_iff (a :: bs)
  refine ⟨h.length_eq, ?_, hdvd, bezoutPair_eq a⟩
  rw [← h.unique hdvd]
  exact h.combination_eq

end List

end ExactNumerics
