import ExactNumerics.Factor.Multiplicative
import ExactNumerics.Proofs.Factor.Covered
import Mathlib.Data.Nat.Totient
import Mathlib.NumberTheory.ArithmeticFunction.Defs

/-!
# Functions read off a prime factorization

A multiplicative function is known from its values at powers of primes. In a prime factorization,
the first power is coprime to the product of the others, so the value at the number is the product
of the values at the powers. This is an induction on the list, and everything that is computed from
a factorization by one pass over it goes back to it.

The totient takes two passes, one for the product of the primes and one for the product of their
predecessors. What it needs is that the bases are the prime divisors, each of them once. The product
of the prime divisors divides the number, so the quotient in between is exact.

## Main definitions

* `totientOf` — the totient, from the factorization
* `coprimeUpTo` — what it counts

## Main results

* `IsPrimeFactorization.map_eq_prod` — the value of a multiplicative function
* `IsPrimeFactorization.prod_map_base` — products over the bases are products over prime divisors
* `Search.coveredAnswer_totient_iff` — the totient
* `Search.totient_counts` — what it counts, and how it multiplies
-/

namespace ExactNumerics

theorem product_eq_prod (ns : List ℕ) : product ns = ns.prod := List.prod_eq_foldl.symm

/-! ### The powers and the bases -/

namespace IsPrimeFactorization

variable {n : ℕ} {fs : Factorization} {p : Power}

theorem pos (h : IsPrimeFactorization n fs) : 0 < n := by
  rw [← h.value_eq]
  exact Factorization.value_pos fun p hp => (h.prime p hp).pos

/-- The first power is coprime to the product of the others. -/
theorem coprime_head (h : IsPrimeFactorization n (p :: fs)) :
    Nat.Coprime (p.base ^ p.exponent) fs.value := by
  have hp := h.prime p List.mem_cons_self
  refine Nat.Coprime.pow_left _ ((Nat.Prime.coprime_iff_not_dvd hp).mpr fun hdvd => ?_)
  obtain ⟨q, hq, hbase⟩ := (h.tail.dvd_value_iff hp).mp hdvd
  exact ((List.pairwise_cons.mp h.increasing).1 q hq).ne' hbase

/-- **A multiplicative function is the product of its values at the powers.** -/
theorem map_eq_prod {R : Type*} [CommMonoidWithZero R] {F : ArithmeticFunction R}
    (hF : F.IsMultiplicative) (h : IsPrimeFactorization n fs) :
    F n = (fs.map fun p => F (p.base ^ p.exponent)).prod := by
  rw [← h.value_eq]
  induction fs generalizing n with
  | nil => exact hF.map_one
  | cons p fs ih =>
    rw [Factorization.value_cons, hF.map_mul_of_coprime h.coprime_head, ih h.tail, List.map_cons,
      List.prod_cons]

theorem nodup_bases (h : IsPrimeFactorization n fs) : (fs.map (·.base)).Nodup :=
  List.pairwise_map.mpr (h.increasing.imp fun hlt => hlt.ne)

theorem toFinset_bases (h : IsPrimeFactorization n fs) :
    (fs.map (·.base)).toFinset = n.primeFactors := by
  ext q
  rw [List.mem_toFinset, h.mem_bases_iff, Nat.mem_primeFactors_of_ne_zero h.pos.ne']

/-- **A product over the bases is one over the prime divisors.** -/
theorem prod_map_base {R : Type*} [CommMonoid R] (h : IsPrimeFactorization n fs) (g : ℕ → R) :
    ((fs.map (·.base)).map g).prod = ∏ p ∈ n.primeFactors, g p := by
  rw [← List.prod_toFinset g h.nodup_bases, h.toFinset_bases]

theorem product_bases (h : IsPrimeFactorization n fs) :
    product (fs.map (·.base)) = ∏ p ∈ n.primeFactors, p := by
  rw [product_eq_prod, ← h.prod_map_base fun p => p, List.map_id']

end IsPrimeFactorization

/-! ### The totient -/

/-- The totient of `n`, from its factorization. -/
def totientOf (n : ℕ) (fs : Factorization) : ℕ :=
  n / product (fs.map (·.base)) * product ((fs.map (·.base)).map (· - 1))

/-- The numbers from `1` to `n` that are coprime to `n`. -/
def coprimeUpTo (n : ℕ) : Finset ℕ := {k ∈ Finset.Icc 1 n | Nat.gcd k n = 1}

theorem card_coprimeUpTo (n : ℕ) : (coprimeUpTo n).card = n.totient := by
  have hIco : Finset.Icc 1 n = Finset.Ico 1 (1 + n) := by
    ext k
    simp only [Finset.mem_Icc, Finset.mem_Ico]
    omega
  rw [coprimeUpTo, hIco, ← Nat.filter_coprime_Ico_eq_totient n 1]
  exact congrArg Finset.card (Finset.filter_congr fun k _ => Nat.coprime_comm)

section Totient

variable {n : ℕ} {fs : Factorization}

/-- The product of the bases divides the number. -/
theorem IsPrimeFactorization.product_bases_dvd (h : IsPrimeFactorization n fs) :
    product (fs.map (·.base)) ∣ n := by
  rw [h.product_bases]
  exact Nat.prod_primeFactors_dvd n

/-- **Euler's product formula**, in integers. -/
theorem IsPrimeFactorization.totientOf_eq (h : IsPrimeFactorization n fs) :
    totientOf n fs = n.totient := by
  rw [totientOf, h.product_bases, product_eq_prod, h.prod_map_base (· - 1),
    ← Nat.totient_eq_div_primeFactors_mul]

end Totient

namespace Search

variable {n : ℕ}

theorem totient_eq (n : ℕ) : Search.totient n = factor n >>= fun fs => pure (totientOf n fs) := by
  simp only [Search.totient, primeDivisors, bind_assoc, pure_bind, totientOf]

/-- **The totient of a covered number.** -/
theorem coveredAnswer_totient_iff (hn : 0 < n) {t : ℕ} :
    CoveredAnswer n (Search.totient n) t ↔ t = n.totient := by
  rw [totient_eq]
  exact coveredAnswer_of_factor_iff hn fun fs hfs => hfs.totientOf_eq

/-- **What the totient counts, and how it multiplies.** Whatever the settings, the table and the
draws are in each call, the totient of a covered number is the number of its units. So it is
multiplicative for coprime arguments. The prime divisors multiply to a divisor of the number, so
the quotient in the formula is exact. -/
theorem totient_counts (hn : 1 ≤ n) :
    (∀ t, CoveredAnswer n (Search.totient n) t ↔ t = (coprimeUpTo n).card) ∧
      (∀ m s t u, 1 ≤ m → Nat.gcd m n = 1 → CoveredAnswer m (Search.totient m) s →
        CoveredAnswer n (Search.totient n) t → CoveredAnswer (m * n) (Search.totient (m * n)) u →
          u = s * t) ∧
      ∀ ps t, CoveredAnswer n (primeDivisors n) ps → CoveredAnswer n (Search.totient n) t →
        0 < product ps ∧ product ps ∣ n ∧ t = n / product ps * product (ps.map (· - 1)) := by
  refine ⟨fun t => ?_, ?_, ?_⟩
  · rw [coveredAnswer_totient_iff hn, card_coprimeUpTo]
  · intro m s t u hm hgcd hs ht hu
    rw [(coveredAnswer_totient_iff hm).mp hs, (coveredAnswer_totient_iff hn).mp ht,
      (coveredAnswer_totient_iff (Nat.mul_pos hm hn)).mp hu, Nat.totient_mul hgcd]
  · intro ps t hps ht
    obtain ⟨fs, hfs, rfl⟩ := coveredAnswer_bind_pure_iff.mp hps
    have hprime := (coveredAnswer_factor_iff hn).mp hfs
    have hdvd := hprime.product_bases_dvd
    refine ⟨Nat.pos_of_dvd_of_pos hdvd hn, hdvd, ?_⟩
    exact ((coveredAnswer_totient_iff hn).mp ht).trans hprime.totientOf_eq.symm

/-- The totients of five and twelve multiply to the one of sixty. -/
theorem totient_counts_twelve :
    1 ≤ 12 ∧ 1 ≤ 5 ∧ Nat.gcd 5 12 = 1 ∧ CoveredAnswer 5 (Search.totient 5) 4 ∧
      CoveredAnswer 12 (Search.totient 12) 4 ∧ CoveredAnswer 60 (Search.totient 60) 16 ∧
      ∃ ps, CoveredAnswer 12 (primeDivisors 12) ps ∧ product ps ∣ 12 := by
  obtain ⟨hfive, -, -⟩ := totient_counts (n := 5) (by decide)
  obtain ⟨htwelve, hmul, hformula⟩ := totient_counts (n := 12) (by decide)
  obtain ⟨hsixty, -, -⟩ := totient_counts (n := 60) (by decide)
  have h5 := (hfive 4).mpr (by decide +kernel)
  have h12 := (htwelve 4).mpr (by decide +kernel)
  have h60 := (hsixty _).mpr rfl
  rw [hmul 5 4 4 _ (by decide) (by decide) h5 h12 h60] at h60
  obtain ⟨fs, hfs, -⟩ := exists_coveredAnswer_factor (n := 12) (by decide)
  have hps : CoveredAnswer 12 (primeDivisors 12) (fs.map (·.base)) :=
    coveredAnswer_bind_pure_iff.mpr ⟨fs, hfs, rfl⟩
  obtain ⟨-, hdvd, -⟩ := hformula _ 4 hps h12
  exact ⟨by decide, by decide, by decide, h5, h12, h60, _, hps, hdvd⟩

end Search

end ExactNumerics
