import ExactNumerics.Proofs.Factor.Multiplicative
import Mathlib.Algebra.Order.Ring.GeomSum
import Mathlib.Data.List.Sort
import Mathlib.NumberTheory.ArithmeticFunction.Misc

/-!
# The divisors of a number, and the sums of their powers

The divisors are listed by extending a list, one power of a prime after the other. If a list has
the divisors of `a`, each of them once, and the prime `q` does not divide `a`, then the products
with the powers of `q` up to `q ^ e` are the divisors of `a * q ^ e`, each of them once. A divisor
of the product splits into a part that divides `a` and a part that divides `q ^ e`, and the first
part is the greatest common divisor with `a`, so it is known from the product. Going through the
factorization, this is an induction on the list that starts at any number coprime to it.

The sums of powers do not look at the list. They are multiplicative, so each is the product of its
values at the prime powers, which are geometric sums.

## Main definitions

* `ListsDivisors n ds` — the list has the divisors of `n`, each of them once

## Main results

* `ListsDivisors.extend` — the extension by one power of a prime
* `IsPrimeFactorization.listsDivisors` — a pass through the factorization
* `IsPrimeFactorization.divisorSumOf_eq` — the closed forms are sums over divisors
* `Search.divisors_listed` — the list, and the sums of the powers over it
-/

namespace ExactNumerics

/-! ### Listing the divisors -/

/-- The list has the divisors of `n`, each of them once. -/
structure ListsDivisors (n : ℕ) (ds : List ℕ) : Prop where
  /-- No divisor is listed twice. -/
  nodup : ds.Nodup
  /-- What is listed are the divisors. -/
  mem_iff : ∀ d, d ∈ ds ↔ d ∣ n

/-- The products of what is listed with the powers of the base, up to its exponent. -/
def extendDivisors (ds : List ℕ) (p : Power) : List ℕ :=
  ds.flatMap fun d => ((List.range (p.exponent + 1)).map (p.base ^ ·)).map (d * ·)

theorem divisorsOf_eq (fs : Factorization) :
    divisorsOf fs = (fs.foldl extendDivisors [1]).mergeSort := rfl

theorem mem_extendDivisors {ds : List ℕ} {p : Power} {x : ℕ} :
    x ∈ extendDivisors ds p ↔ ∃ d ∈ ds, ∃ i ≤ p.exponent, d * p.base ^ i = x := by
  simp [extendDivisors]

/-- The factor that divides `a` is known from the product. -/
theorem gcd_mul_pow {a d q i : ℕ} (hd : d ∣ a) (hq : Nat.Coprime q a) :
    Nat.gcd (d * q ^ i) a = d := by
  rw [(hq.pow_left i).gcd_mul_right_cancel d, Nat.gcd_eq_left hd]

namespace ListsDivisors

variable {a n : ℕ} {ds es : List ℕ} {p : Power} {fs : Factorization}

theorem one : ListsDivisors 1 [1] where
  nodup := List.nodup_singleton 1
  mem_iff d := by simp

theorem twelve : ListsDivisors 12 [1, 2, 3, 4, 6, 12] where
  nodup := by decide
  mem_iff d := by
    have hset : [1, 2, 3, 4, 6, 12].toFinset = Nat.divisors 12 := by decide +kernel
    rw [← List.mem_toFinset, hset, Nat.mem_divisors]
    exact and_iff_left (by decide)

theorem of_perm (h : ListsDivisors n ds) (hperm : ds.Perm es) : ListsDivisors n es where
  nodup := hperm.nodup_iff.mp h.nodup
  mem_iff d := hperm.mem_iff.symm.trans (h.mem_iff d)

theorem nodup_extend (h : ListsDivisors a ds) (hprime : p.base.Prime)
    (hcop : Nat.Coprime p.base a) (ha : 0 < a) : (extendDivisors ds p).Nodup := by
  rw [extendDivisors, List.nodup_flatMap]
  constructor
  · -- the products with one divisor: a power is known from its value
    intro d hd
    have hpos : 0 < d := Nat.pos_of_dvd_of_pos ((h.mem_iff d).mp hd) ha
    rw [List.map_map]
    refine List.nodup_range.map fun i j hij => ?_
    exact Nat.pow_right_injective hprime.two_le (Nat.eq_of_mul_eq_mul_left hpos hij)
  · -- the products with two divisors: each divisor is known from the product
    refine h.nodup.imp_of_mem fun {d d'} hd hd' hne => ?_
    intro x hx hx'
    simp only [List.mem_map, List.mem_range, exists_exists_and_eq_and] at hx hx'
    obtain ⟨i, -, rfl⟩ := hx
    obtain ⟨j, -, hj⟩ := hx'
    refine hne ?_
    rw [← gcd_mul_pow (i := i) ((h.mem_iff d).mp hd) hcop, ← hj,
      gcd_mul_pow ((h.mem_iff d').mp hd') hcop]

/-- **The extension by a power of a prime that is not there yet.** -/
theorem extend (h : ListsDivisors a ds) (hprime : p.base.Prime) (hcop : Nat.Coprime p.base a)
    (ha : 0 < a) : ListsDivisors (a * p.base ^ p.exponent) (extendDivisors ds p) where
  nodup := h.nodup_extend hprime hcop ha
  mem_iff x := by
    rw [mem_extendDivisors]
    constructor
    · rintro ⟨d, hd, i, hi, rfl⟩
      exact Nat.mul_dvd_mul ((h.mem_iff d).mp hd) (Nat.pow_dvd_pow _ hi)
    · intro hx
      obtain ⟨d, y, hd, hy, rfl⟩ := Nat.dvd_mul.mp hx
      obtain ⟨i, hi, rfl⟩ := (Nat.dvd_prime_pow hprime).mp hy
      exact ⟨d, (h.mem_iff d).mpr hd, i, hi, rfl⟩

/-- **A pass through a factorization**, from the divisors of a number that is coprime to it. -/
theorem foldl_extend (h : ListsDivisors a ds) (hfs : IsPrimeFactorization n fs)
    (hcop : Nat.Coprime a n) (ha : 0 < a) :
    ListsDivisors (a * n) (fs.foldl extendDivisors ds) := by
  rw [← hfs.value_eq] at hcop ⊢
  induction fs generalizing a n ds with
  | nil => simpa using h
  | cons p fs ih =>
    have hprime := hfs.prime p List.mem_cons_self
    have hexp := hfs.exponent_pos p List.mem_cons_self
    rw [Factorization.value_cons] at hcop ⊢
    have hbase : Nat.Coprime p.base a :=
      (Nat.coprime_pow_right_iff hexp a p.base).mp hcop.coprime_mul_right_right |>.symm
    have hrest : Nat.Coprime (a * p.base ^ p.exponent) (Factorization.value fs) :=
      hcop.coprime_mul_left_right.mul_left hfs.coprime_head
    rw [List.foldl_cons, ← Nat.mul_assoc]
    exact ih (h.extend hprime hbase ha) hfs.tail hrest (Nat.mul_pos ha (Nat.pow_pos hprime.pos))

/-- A sum over the list is one over the divisors. -/
theorem sum_map {R : Type*} [AddCommMonoid R] (h : ListsDivisors n ds) (hn : 0 < n) (g : ℕ → R) :
    (ds.map g).sum = ∑ d ∈ n.divisors, g d := by
  have hset : ds.toFinset = n.divisors := by
    ext d
    rw [List.mem_toFinset, h.mem_iff, Nat.mem_divisors, and_iff_left hn.ne']
  rw [← hset, List.sum_toFinset g h.nodup]

end ListsDivisors

namespace IsPrimeFactorization

variable {n : ℕ} {ds : List ℕ} {fs : Factorization}

theorem listsDivisors (h : IsPrimeFactorization n fs) : ListsDivisors n (divisorsOf fs) := by
  rw [divisorsOf_eq]
  refine ListsDivisors.of_perm ?_ (List.mergeSort_perm _ _).symm
  simpa using ListsDivisors.one.foldl_extend h (Nat.coprime_one_left n) Nat.one_pos

theorem pairwise_divisorsOf (h : IsPrimeFactorization n fs) :
    (divisorsOf fs).Pairwise (· < ·) := by
  have hsorted : (divisorsOf fs).SortedLE := List.sortedLE_mergeSort
  exact (hsorted.sortedLT_of_nodup h.listsDivisors.nodup).pairwise

/-- **The list of divisors is the only one that increases strictly.** -/
theorem eq_divisorsOf_iff (h : IsPrimeFactorization n fs) :
    ds = divisorsOf fs ↔ ds.Pairwise (· < ·) ∧ ∀ d, d ∈ ds ↔ d ∣ n := by
  constructor
  · rintro rfl
    exact ⟨h.pairwise_divisorsOf, h.listsDivisors.mem_iff⟩
  · rintro ⟨hincreasing, hmem⟩
    exact hincreasing.eq_of_mem_iff h.pairwise_divisorsOf fun d =>
      (hmem d).trans (h.listsDivisors.mem_iff d).symm

end IsPrimeFactorization

/-! ### Sums of powers -/

section DivisorSum

open ArithmeticFunction

variable {b e k n : ℕ} {fs : Factorization}

theorem pow_sub_one_pos (hb : 2 ≤ b) (hk : 0 < k) : 0 < b ^ k - 1 :=
  Nat.sub_pos_of_lt (Nat.one_lt_pow hk.ne' hb)

/-- The quotient in a geometric sum is exact. -/
theorem pow_sub_one_dvd (b k m : ℕ) : b ^ k - 1 ∣ b ^ (k * m) - 1 := by
  simpa only [one_pow, pow_mul] using Nat.sub_dvd_pow_sub_pow (b ^ k) 1 m

/-- The closed form for a power of a prime, with a positive exponent. -/
theorem geometric_quotient (hb : b.Prime) (hk : 0 < k) :
    (b ^ (k * (e + 1)) - 1) / (b ^ k - 1) = sigma k (b ^ e) := by
  have htwo : 2 ≤ b ^ k := Nat.one_lt_pow hk.ne' hb.one_lt
  calc (b ^ (k * (e + 1)) - 1) / (b ^ k - 1)
      = ((b ^ k) ^ (e + 1) - 1) / (b ^ k - 1) := by rw [pow_mul]
    _ = ∑ j ∈ Finset.range (e + 1), (b ^ k) ^ j := (Nat.geomSum_eq htwo (e + 1)).symm
    _ = ∑ j ∈ Finset.range (e + 1), b ^ (j * k) :=
      Finset.sum_congr rfl fun j _ => by rw [← pow_mul, Nat.mul_comm]
    _ = sigma k (b ^ e) := (sigma_apply_prime_pow hb).symm

/-- Each of the three closed forms is made of the sums for the powers. -/
theorem divisorSumOf_eq_product (h : ∀ p ∈ fs, p.base.Prime) :
    divisorSumOf k fs = product (fs.map fun p => sigma k (p.base ^ p.exponent)) := by
  unfold divisorSumOf
  split_ifs with hzero hone
  · subst hzero
    refine congrArg product (List.map_congr_left fun p hp => ?_)
    exact (sigma_zero_apply_prime_pow (h p hp)).symm
  · subst hone
    refine congrArg product (List.map_congr_left fun p hp => ?_)
    simpa using geometric_quotient (e := p.exponent) (h p hp) Nat.one_pos
  · refine congrArg product (List.map_congr_left fun p hp => ?_)
    exact geometric_quotient (h p hp) (Nat.pos_of_ne_zero hzero)

/-- **The closed forms are sums over the divisors.** -/
theorem IsPrimeFactorization.divisorSumOf_eq (h : IsPrimeFactorization n fs) (k : ℕ) :
    divisorSumOf k fs = ∑ d ∈ n.divisors, d ^ k := by
  rw [divisorSumOf_eq_product h.prime, product_eq_prod, ← sigma_apply]
  exact (h.map_eq_prod isMultiplicative_sigma).symm

end DivisorSum

namespace Search

variable {m : ℕ} {n : ℤ}

theorem divisors_of_ne_zero (hn : n ≠ 0) :
    divisors n = factor n.natAbs >>= fun fs => pure (divisorsOf fs) := by
  simp only [divisors, if_neg hn]

/-- **The divisors of a covered number.** -/
theorem coveredAnswer_divisors_iff (hn : n ≠ 0) {ds : List ℕ} :
    CoveredAnswer n.natAbs (divisors n) ds ↔
      ds.Pairwise (· < ·) ∧ ∀ d, d ∈ ds ↔ d ∣ n.natAbs := by
  have hpos : 0 < n.natAbs := Int.natAbs_pos.mpr hn
  obtain ⟨fs, -, hfs⟩ := exists_coveredAnswer_factor hpos
  rw [divisors_of_ne_zero hn, ← hfs.eq_divisorsOf_iff]
  exact coveredAnswer_of_factor_iff hpos fun gs hgs => by rw [hgs.unique hfs]

theorem listsDivisors_of_coveredAnswer (hm : 0 < m) {ds : List ℕ}
    (h : CoveredAnswer m (divisors m) ds) : ListsDivisors m ds := by
  have hne : (m : ℤ) ≠ 0 := Int.natCast_ne_zero.mpr hm.ne'
  obtain ⟨hincreasing, hmem⟩ := (coveredAnswer_divisors_iff hne).mp h
  exact ⟨hincreasing.nodup, hmem⟩

/-- **The sums of powers over the divisors of a covered number.** -/
theorem coveredAnswer_divisorSum_iff (hm : 0 < m) {k s : ℕ} :
    CoveredAnswer m (divisorSum m k) s ↔ s = ∑ d ∈ m.divisors, d ^ k :=
  coveredAnswer_of_factor_iff hm fun _ hfs => hfs.divisorSumOf_eq k

/-- **The list of divisors, and the sums of the powers over it.** Whatever the settings, the table
and the draws are in each call, the divisors of a covered integer are listed in strictly increasing
order, the same for its negative. The sum of the `k`-th powers of a positive one, in each of its
closed forms, is the sum over that list. The quotients it is a product of are exact, by divisors
that are not zero. -/
theorem divisors_listed (hn : n ≠ 0) :
    (∀ ds, CoveredAnswer n.natAbs (divisors n) ds ↔
        ds.Pairwise (· < ·) ∧ ∀ d : ℕ, d ∈ ds ↔ 0 < d ∧ (d : ℤ) ∣ n) ∧
      (∀ ds, CoveredAnswer n.natAbs (divisors (-n)) ds ↔
        CoveredAnswer n.natAbs (divisors n) ds) ∧
      ∀ m : ℕ, n = m → ∀ k,
        (∀ ds s, CoveredAnswer m (divisors n) ds →
          (CoveredAnswer m (divisorSum m k) s ↔ s = (ds.map (· ^ k)).sum)) ∧
        ∀ fs, CoveredAnswer m (factor m) fs → ∀ p ∈ fs,
          (k = 1 → 0 < p.base - 1 ∧ p.base - 1 ∣ p.base ^ (p.exponent + 1) - 1) ∧
          (2 ≤ k → 0 < p.base ^ k - 1 ∧ p.base ^ k - 1 ∣ p.base ^ (k * (p.exponent + 1)) - 1) := by
  refine ⟨fun ds => ?_, fun ds => ?_, ?_⟩
  · rw [coveredAnswer_divisors_iff hn]
    refine and_congr_right fun _ => forall_congr' fun d => ?_
    have hdvd : (d : ℤ) ∣ n ↔ d ∣ n.natAbs := Int.natCast_dvd
    have hd : d ∣ n.natAbs → 0 < d := fun h => Nat.pos_of_dvd_of_pos h (Int.natAbs_pos.mpr hn)
    rw [hdvd, and_iff_right_of_imp hd]
  · rw [← Int.natAbs_neg, coveredAnswer_divisors_iff (neg_ne_zero.mpr hn), Int.natAbs_neg,
      coveredAnswer_divisors_iff hn]
  · rintro m rfl k
    have hm : 0 < m := by simpa [Nat.pos_iff_ne_zero] using hn
    refine ⟨fun ds s hds => ?_, fun fs hfs p hp => ?_⟩
    · rw [coveredAnswer_divisorSum_iff hm, (listsDivisors_of_coveredAnswer hm hds).sum_map hm]
    · have hprime := ((coveredAnswer_factor_iff hm).mp hfs).prime p hp
      have hone := pow_sub_one_pos hprime.two_le Nat.one_pos
      have hdvd := pow_sub_one_dvd p.base 1 (p.exponent + 1)
      rw [pow_one] at hone hdvd
      rw [Nat.one_mul] at hdvd
      exact ⟨fun _ => ⟨hone, hdvd⟩, fun hk =>
        ⟨pow_sub_one_pos hprime.two_le (by omega), pow_sub_one_dvd _ _ _⟩⟩

/-- The divisors of twelve and of minus twelve, and the sums over them. -/
theorem divisors_listed_twelve :
    (12 : ℤ) ≠ 0 ∧ CoveredAnswer 12 (divisors 12) [1, 2, 3, 4, 6, 12] ∧
      CoveredAnswer 12 (divisors (-12)) [1, 2, 3, 4, 6, 12] ∧
      CoveredAnswer 12 (divisorSum 12 0) 6 ∧ CoveredAnswer 12 (divisorSum 12 1) 28 ∧
      CoveredAnswer 12 (divisorSum 12 2) 210 ∧
      ∃ fs, CoveredAnswer 12 (factor 12) fs ∧
        ∀ p ∈ fs, p.base - 1 ∣ p.base ^ (p.exponent + 1) - 1 := by
  obtain ⟨hlist, hneg, hsum⟩ := divisors_listed (n := 12) (by decide)
  have hmem (d : ℕ) : d ∈ [1, 2, 3, 4, 6, 12] ↔ 0 < d ∧ (d : ℤ) ∣ 12 := by
    have hpos : d ∣ 12 → 0 < d := fun hdvd => Nat.pos_of_dvd_of_pos hdvd (by decide)
    have hdvd : (d : ℤ) ∣ 12 ↔ d ∣ 12 := Int.natCast_dvd_natCast
    rw [ListsDivisors.twelve.mem_iff, hdvd, and_iff_right_of_imp hpos]
  have hds := (hlist [1, 2, 3, 4, 6, 12]).mpr ⟨by decide, hmem⟩
  have hpow (k : ℕ) := ((hsum 12 rfl k).1 _ _ hds).mpr rfl
  obtain ⟨fs, hfs, -⟩ := exists_coveredAnswer_factor (n := 12) (by decide)
  have hexact := (hsum 12 rfl 1).2 fs hfs
  exact ⟨by decide, hds, (hneg _).mpr hds, hpow 0, hpow 1, hpow 2, fs, hfs,
    fun p hp => ((hexact p hp).1 rfl).2⟩

end Search

end ExactNumerics
