import ExactNumerics.Factor.PerfectPower
import ExactNumerics.Proofs.Factor.Covered

/-!
# Largest exponents from a factorization

A product of powers is an `e`-th power as soon as `e` divides all exponents, whatever the bases are.
If the bases are prime, the converse holds as well. So the greatest common divisor of the exponents
is *an* exponent of which the number is an exact power for every factorization, and it is the
largest one for the prime factorization.

The first half does not depend on the answers about primality. With composites among the bases, the
root that is taken at the end is still exact, and only the exponent may be too small.

## Main definitions

* `Factorization.exponentGcd` — the greatest common divisor of the exponents

## Main results

* `IsFactorization.integerRoot_pow` — the root for this exponent is exact
* `IsPrimeFactorization.isLargestPower` — for primes, the exponent is the largest
* `largestPowers_agree` — with and without a factorization, the same power is found
-/

namespace ExactNumerics

/-! ### The exponents of a factorization -/

namespace Factorization

variable {fs : Factorization} {e : ℕ}

/-- The greatest common divisor of the exponents. -/
def exponentGcd (fs : Factorization) : ℕ := fs.foldl (fun g p => Nat.gcd g p.exponent) 0

/-- Taking in one exponent after another. -/
theorem dvd_foldl_gcd_iff {g : ℕ} :
    e ∣ fs.foldl (fun g p => Nat.gcd g p.exponent) g ↔ e ∣ g ∧ ∀ p ∈ fs, e ∣ p.exponent := by
  induction fs generalizing g with
  | nil => simp
  | cons p fs ih => rw [List.foldl_cons, ih, Nat.dvd_gcd_iff, List.forall_mem_cons, and_assoc]

theorem dvd_exponentGcd_iff : e ∣ fs.exponentGcd ↔ ∀ p ∈ fs, e ∣ p.exponent := by
  simp [exponentGcd, dvd_foldl_gcd_iff]

/-- Powers whose exponents have a common divisor multiply to a power with that exponent. -/
theorem exists_pow_eq_value (h : ∀ p ∈ fs, e ∣ p.exponent) : ∃ b, b ^ e = fs.value := by
  induction fs with
  | nil => exact ⟨1, one_pow e⟩
  | cons p fs ih =>
    obtain ⟨⟨k, hk⟩, hfs⟩ := List.forall_mem_cons.mp h
    obtain ⟨b, hb⟩ := ih hfs
    refine ⟨p.base ^ k * b, ?_⟩
    calc (p.base ^ k * b) ^ e = p.base ^ (e * k) * b ^ e := by rw [mul_pow, ← pow_mul, mul_comm k]
      _ = value (p :: fs) := by rw [← hk, hb, value_cons]

end Factorization

section Exponents

variable {fs : Factorization} {n : ℕ}

/-- A number from two on has a factor, so its exponents have a greatest common divisor. -/
theorem IsFactorization.exponentGcd_pos (h : IsFactorization n fs) (hn : 2 ≤ n) :
    0 < fs.exponentGcd := by
  cases fs with
  | nil =>
    have hone : 1 = n := h.value_eq
    omega
  | cons p fs =>
    have hdvd : Factorization.exponentGcd (p :: fs) ∣ p.exponent :=
      Factorization.dvd_exponentGcd_iff.mp dvd_rfl p List.mem_cons_self
    exact Nat.pos_of_dvd_of_pos hdvd (h.exponent_pos p List.mem_cons_self)

/-- **The root is exact**, whether or not the bases are prime. -/
theorem IsFactorization.integerRoot_pow (h : IsFactorization n fs) (hn : 2 ≤ n) :
    integerRoot n fs.exponentGcd ^ fs.exponentGcd = n := by
  obtain ⟨b, hb⟩ :=
    Factorization.exists_pow_eq_value
      (Factorization.dvd_exponentGcd_iff.mp (dvd_refl fs.exponentGcd))
  rw [h.value_eq] at hb
  have hroot : integerRoot (b ^ fs.exponentGcd) fs.exponentGcd = b :=
    ExactNumerics.integerRoot_pow b (h.exponentGcd_pos hn)
  rw [hb] at hroot
  rw [hroot, hb]

/-- **For primes the exponent is the largest.** An exponent of which the number is an exact power
divides the multiplicity of every prime in it. -/
theorem IsPrimeFactorization.isLargestPower (h : IsPrimeFactorization n fs) (hn : 2 ≤ n) :
    IsLargestPower n ⟨integerRoot n fs.exponentGcd, fs.exponentGcd⟩ where
  pow_eq := h.integerRoot_pow hn
  le_exponent b e hb := by
    refine Nat.le_of_dvd (h.exponentGcd_pos hn) (Factorization.dvd_exponentGcd_iff.mpr ?_)
    intro p hp
    obtain ⟨-, -, hexp⟩ := (h.mem_iff p).mp hp
    rw [hexp, ← hb, Nat.factorization_pow]
    exact dvd_mul_right e _

end Exponents

/-! ### The search -/

namespace Search

variable {σ : Surroundings} {d : Draws} {a : ℕ}

/-- Zero and one are not factored. -/
theorem asPower_of_lt_two (ha : a < 2) : Search.asPower a = pure ⟨a, 1⟩ := by
  rw [Search.asPower, if_pos ha]

theorem asPower_of_two_le (ha : 2 ≤ a) :
    Search.asPower a =
      factor a >>= fun fs => pure ⟨integerRoot a fs.exponentGcd, fs.exponentGcd⟩ := by
  rw [Search.asPower, if_neg (by omega)]
  rfl

/-- **What is returned is the number**, with any table and any settings. -/
theorem meets_asPower (a : ℕ) :
    Meets (Search.asPower a) σ d (fun q _ => q.base ^ q.exponent = a ∧ 1 ≤ q.exponent)
      fun _ _ => True := by
  rcases Nat.lt_or_ge a 2 with ha | ha
  · rw [asPower_of_lt_two ha]
    exact .pure ⟨pow_one a, le_rfl⟩
  · rw [asPower_of_two_le ha]
    refine (meets_factor_answer (by omega)).bind ?_
    intro fs d' _ hfs
    exact .pure ⟨hfs.integerRoot_pow ha, hfs.exponentGcd_pos ha⟩

/-- **For a covered number it is the largest power**, if a factorization is found. -/
theorem asPower_run_of_covered {p p' : Progress} {fs : Factorization} (ha : 1 ≤ a)
    (hlt : a < σ.table.limit) (hrun : (factor a).run σ p = (.ok fs, p')) :
    ∃ p'', (Search.asPower a).run σ p = (.ok (ExactNumerics.asPower a), p'') := by
  rcases Nat.lt_or_ge a 2 with ha' | ha'
  · obtain rfl : a = 1 := by omega
    exact ⟨p, by rw [asPower_of_lt_two ha']; rfl⟩
  · have hfs : IsPrimeFactorization a fs := Meets.of_ok (meets_factor_of_covered ha hlt) hrun
    have heq := (hfs.isLargestPower ha').unique (isLargestPower_asPower ha')
    refine ⟨p', ?_⟩
    rw [asPower_of_two_le ha', run_bind_ok hrun, run_pure, heq]

end Search

/-! ### Both ways -/

/-- **With and without a factorization, the same power is found.** Trying exponents downwards writes
every number as a power, and every number from two on with the largest exponent and a base that is
not a perfect power. If the table covers a positive number and its factorization is found, the power
that is read off the factorization is the same one. And with any table and any settings, what is
read off a factorization is the number. -/
theorem largestPowers_agree (a : ℕ) (σ : Search.Surroundings) (p : Search.Progress) :
    (asPower a).base ^ (asPower a).exponent = a ∧
      (2 ≤ a → IsGreatest {e | ∃ b, b ^ e = a} (asPower a).exponent ∧
        ∀ b e, 2 ≤ e → b ^ e ≠ (asPower a).base) ∧
      (1 ≤ a → a < σ.table.limit → (∃ fs p', (Search.factor a).run σ p = (.ok fs, p')) →
        ∃ p', (Search.asPower a).run σ p = (.ok (asPower a), p')) ∧
      ∀ q p', (Search.asPower a).run σ p = (.ok q, p') →
        q.base ^ q.exponent = a ∧ 1 ≤ q.exponent := by
  refine ⟨asPower_pow a, fun ha => ?_, ?_, ?_⟩
  · have hlargest := isLargestPower_asPower ha
    refine ⟨⟨⟨_, hlargest.pow_eq⟩, ?_⟩, fun _ _ he => hlargest.pow_ne_base he⟩
    rintro e ⟨b, hb⟩
    exact hlargest.le_exponent b e hb
  · rintro ha hlt ⟨fs, p', hrun⟩
    exact Search.asPower_run_of_covered ha hlt hrun
  · intro q p' hrun
    exact Search.Meets.of_ok (Search.meets_asPower a) hrun

/-- The sixth power of two, found in both ways. -/
theorem largestPowers_agree_sixty_four :
    2 ≤ 64 ∧ 64 < (PrimeTable.fresh 65 (by decide)).limit ∧ asPower 64 = ⟨2, 6⟩ ∧
      ∃ p', (Search.asPower 64).run ⟨{}, PrimeTable.fresh 65 (by decide), none⟩
        ⟨Draws.ofScript [], {}⟩ = (.ok ⟨2, 6⟩, p') := by
  obtain ⟨fs, p₀, hfactor, -⟩ := (Search.returns_factor (d := Draws.ofScript [])
    (σ := ⟨{}, PrimeTable.fresh 65 (by decide), none⟩) Settings.hasTrialCount_default
    (by decide : 0 < 64) (by decide)).exists_run (p := ⟨Draws.ofScript [], {}⟩)
  obtain ⟨hpow, hlargest, hagree, -⟩ := largestPowers_agree 64
    ⟨{}, PrimeTable.fresh 65 (by decide), none⟩ ⟨Draws.ofScript [], {}⟩
  obtain ⟨p', hrun⟩ := hagree (by decide) (by decide) ⟨fs, p₀, hfactor⟩
  obtain ⟨⟨-, hge⟩, -⟩ := hlargest (by decide)
  have hle : (asPower 64).exponent < 7 := lt_bitLength_of_pow_eq (by decide) hpow
  have hsix : 6 ≤ (asPower 64).exponent := hge ⟨2, rfl⟩
  have heq : asPower 64 = ⟨2, 6⟩ := by
    have hexp : (asPower 64).exponent = 6 := by omega
    rw [hexp] at hpow
    have hbase : (asPower 64).base = 2 := Nat.pow_left_injective (by decide) hpow
    rw [← hexp, ← hbase]
  exact ⟨by decide, by decide, heq, p', heq ▸ hrun⟩

end ExactNumerics
