import ExactNumerics.Proofs.Factor.Divisors
import Mathlib.NumberTheory.ArithmeticFunction.Moebius

/-!
# The Möbius function, and its sums over divisors

The value is read off the exponents and the number of primes: zero if some prime is repeated, and a
sign otherwise. Power by power, this is a product: a first power contributes a sign and a higher one
zero. So it is the multiplicative function with these values at the powers of primes.

That the values cancel over the divisors is the inversion of the zeta function. The list the values
are summed over is the one that was computed, which has the divisors, each of them once. The value
at each of the divisors may come from a call of its own.

## Main definitions

* `moebiusOf` — the value, from the factorization

## Main results

* `moebiusOf_eq_prod` — the value is a product over the powers
* `Search.coveredAnswer_moebius_iff` — it is the Möbius function
* `Search.moebius_cancels` — its sums over divisors, and where it is not zero
-/

namespace ExactNumerics

/-- The value of the Möbius function at the number with this factorization. -/
def moebiusOf (fs : Factorization) : ℤ :=
  if fs.any fun p => 1 < p.exponent then 0 else if fs.length % 2 = 1 then -1 else 1

section Value

open ArithmeticFunction

variable {n : ℕ} {p : Power} {fs : Factorization}

/-- A first power changes the sign, and a higher one makes the value zero. -/
theorem moebiusOf_cons (hp : 0 < p.exponent) :
    moebiusOf (p :: fs) = (if p.exponent = 1 then -1 else 0) * moebiusOf fs := by
  unfold moebiusOf
  rw [List.any_cons, List.length_cons]
  by_cases hone : p.exponent = 1
  · have hlow : decide (1 < p.exponent) = false := decide_eq_false (by omega)
    rw [hlow, Bool.false_or, if_pos hone]
    -- what is left is zero on both sides, or has the other parity
    split_ifs with hany hodd heven <;> first | rfl | omega
  · have hhigh : decide (1 < p.exponent) = true := decide_eq_true (by omega)
    rw [hhigh, Bool.true_or, if_pos rfl, if_neg hone, zero_mul]

theorem moebiusOf_eq_prod (h : ∀ p ∈ fs, 0 < p.exponent) :
    moebiusOf fs = (fs.map fun p => if p.exponent = 1 then (-1 : ℤ) else 0).prod := by
  induction fs with
  | nil => rfl
  | cons p fs ih =>
    obtain ⟨hp, hfs⟩ := List.forall_mem_cons.mp h
    rw [moebiusOf_cons hp, ih hfs, List.map_cons, List.prod_cons]

/-- **The value is the one of the Möbius function.** -/
theorem IsPrimeFactorization.moebiusOf_eq (h : IsPrimeFactorization n fs) :
    moebiusOf fs = ArithmeticFunction.moebius n := by
  rw [moebiusOf_eq_prod h.exponent_pos, h.map_eq_prod isMultiplicative_moebius]
  refine congrArg List.prod (List.map_congr_left fun p hp => ?_)
  exact (moebius_apply_prime_pow (h.prime p hp) (h.exponent_pos p hp).ne').symm

/-- The values cancel over the divisors of any number but one. -/
theorem sum_moebius_divisors (n : ℕ) :
    ∑ d ∈ n.divisors, ArithmeticFunction.moebius d = if n = 1 then 1 else 0 := by
  rw [← coe_mul_zeta_apply, moebius_mul_coe_zeta, one_apply]

theorem moebius_ne_zero_iff_forall_sq (hn : 0 < n) :
    ArithmeticFunction.moebius n ≠ 0 ↔ ∀ d, 1 < d * d → ¬ d * d ∣ n := by
  rw [moebius_ne_zero_iff_squarefree]
  constructor
  · intro hsquarefree d hd hdvd
    have hone : d = 1 := Nat.isUnit_iff.mp (hsquarefree d hdvd)
    simp [hone] at hd
  · intro h d hdvd
    have hpos : 0 < d * d := Nat.pos_of_dvd_of_pos hdvd hn
    have hone : d * d = 1 := le_antisymm (not_lt.mp fun hd => h d hd hdvd) hpos
    exact Nat.isUnit_iff.mpr (Nat.eq_one_of_mul_eq_one_left hone)

end Value

namespace Search

variable {n : ℕ}

theorem moebius_eq (n : ℕ) : Search.moebius n = factor n >>= fun fs => pure (moebiusOf fs) := by
  unfold Search.moebius moebiusOf
  refine congrArg (factor n >>= ·) (funext fun fs => ?_)
  split_ifs <;> rfl

/-- **The Möbius function at a covered number.** -/
theorem coveredAnswer_moebius_iff (hn : 0 < n) {m : ℤ} :
    CoveredAnswer n (Search.moebius n) m ↔ m = ArithmeticFunction.moebius n := by
  rw [moebius_eq]
  exact coveredAnswer_of_factor_iff hn fun fs hfs => hfs.moebiusOf_eq

/-- **The values of the Möbius function cancel.** Whatever the settings, the table and the draws are
in each call, the values at what is listed as the divisors of a covered number sum to zero, or to
one for the number one. The calls that return a value at the number return the same one. It is not
zero exactly if one is the only square that divides the number. -/
theorem moebius_cancels (hn : 1 ≤ n) :
    (∀ (ds : List ℕ) (μ : ℕ → ℤ), CoveredAnswer n (divisors n) ds →
      (∀ d ∈ ds, CoveredAnswer d (Search.moebius d) (μ d)) →
        (ds.map μ).sum = if n = 1 then 1 else 0) ∧
      ∃ m, (∀ m', CoveredAnswer n (Search.moebius n) m' ↔ m' = m) ∧
        (m ≠ 0 ↔ ∀ d, 1 < d * d → ¬ d * d ∣ n) := by
  constructor
  · intro ds μ hds hμ
    have hlist := listsDivisors_of_coveredAnswer hn hds
    have hvalue : ∀ d ∈ ds, μ d = ArithmeticFunction.moebius d := fun d hd => by
      have hpos := Nat.pos_of_dvd_of_pos ((hlist.mem_iff d).mp hd) hn
      exact (coveredAnswer_moebius_iff hpos).mp (hμ d hd)
    rw [List.map_congr_left hvalue, hlist.sum_map hn, sum_moebius_divisors]
  · exact ⟨ArithmeticFunction.moebius n, fun m' => coveredAnswer_moebius_iff hn,
      moebius_ne_zero_iff_forall_sq hn⟩

/-- The values at the divisors of twelve cancel, and the one at twelve is zero. -/
theorem moebius_cancels_twelve :
    1 ≤ 12 ∧ CoveredAnswer 12 (divisors 12) [1, 2, 3, 4, 6, 12] ∧
      (∃ μ : ℕ → ℤ, (∀ d ∈ [1, 2, 3, 4, 6, 12], CoveredAnswer d (Search.moebius d) (μ d)) ∧
        μ 1 + μ 2 + μ 3 + μ 4 + μ 6 + μ 12 = 0) ∧
      CoveredAnswer 12 (Search.moebius 12) 0 ∧ 2 * 2 ∣ 12 := by
  obtain ⟨hsum, m, hvalue, hsquare⟩ := moebius_cancels (n := 12) (by decide)
  have hds : CoveredAnswer 12 (divisors 12) [1, 2, 3, 4, 6, 12] :=
    (coveredAnswer_divisors_iff (n := 12) (by decide)).mpr
      ⟨by decide, ListsDivisors.twelve.mem_iff⟩
  have hμ : ∀ d ∈ [1, 2, 3, 4, 6, 12],
      CoveredAnswer d (Search.moebius d) (ArithmeticFunction.moebius d) := fun d hd => by
    have hpos := Nat.pos_of_dvd_of_pos ((ListsDivisors.twelve.mem_iff d).mp hd) (by decide)
    exact (coveredAnswer_moebius_iff hpos).mpr rfl
  have hcancel := hsum _ _ hds hμ
  have hzero : m = 0 := by
    by_contra hne
    exact hsquare.mp hne 2 (by decide) (by decide)
  refine ⟨by decide, hds, ⟨fun d => ArithmeticFunction.moebius d, hμ, ?_⟩,
    (hvalue 0).mpr hzero.symm, by decide⟩
  simpa [add_assoc] using hcancel

end Search

end ExactNumerics
