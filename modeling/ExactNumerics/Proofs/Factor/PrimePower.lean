import ExactNumerics.Proofs.Factor.PerfectPower

/-!
# Prime powers and perfect powers

Whether a number is a power of a prime is told by how many powers its factorization consists of.
Whether it is a perfect power is told by the greatest common divisor of their exponents, and a root.
Both questions are about all bases and all exponents, and both answers are right for the same
reason: a way to write the number as a power determines what is found. A power of a prime is a
prime factorization by itself, so it is the one that is found. A power with the largest exponent is
the one that is found as well, and for a number from two on, the largest exponent among the proper
ones is the largest of all.

The two are consistent because the exponent of a power of a prime is the largest: another way to
write the number has a power of the same prime for its base.

## Main definitions

* `IsPrimePower a q` — the power `q` is `a`, and its base is prime
* `IsPerfectPower a q` — the power `q` is `a`, with a proper base and a proper exponent

## Main results

* `IsPrimeFactorization.singlePower?_eq_some_iff` — prime powers, from the factorization
* `properPower?_asPower_eq_some_iff` — perfect powers, from the largest exponent
* `IsPrimePower.isLargestPower` — the exponent of a prime power is the largest
* `Search.powers_classified` — the searches
-/

namespace ExactNumerics

variable {a : ℕ} {p q : Power} {fs : Factorization}

/-! ### Prime powers -/

/-- The power is `a`, with a prime for its base. -/
structure IsPrimePower (a : ℕ) (q : Power) : Prop where
  /-- The base is prime. -/
  prime : q.base.Prime
  /-- The exponent is positive. -/
  exponent_pos : 1 ≤ q.exponent
  /-- The power is the number. -/
  pow_eq : q.base ^ q.exponent = a

namespace IsPrimePower

theorem two_le (h : IsPrimePower a q) : 2 ≤ a := by
  rw [← h.pow_eq]
  calc 2 ≤ q.base := h.prime.two_le
    _ ≤ q.base ^ q.exponent := Nat.le_self_pow (by have := h.exponent_pos; omega) q.base

/-- A power of a prime is a prime factorization by itself. -/
theorem isPrimeFactorization (h : IsPrimePower a q) : IsPrimeFactorization a [q] where
  increasing := List.pairwise_singleton _ q
  two_le_base := by simpa using h.prime.two_le
  exponent_pos := by
    intro r hr
    rw [List.mem_singleton.mp hr]
    exact h.exponent_pos
  value_eq := by rw [Factorization.value_singleton, h.pow_eq]
  prime := by simpa using h.prime

/-- **There is one at most.** -/
theorem unique (h : IsPrimePower a p) (h' : IsPrimePower a q) : p = q :=
  List.singleton_inj.mp (h.isPrimeFactorization.unique h'.isPrimeFactorization)

/-- **Its exponent is the largest**: in every other way to write the number, the base is a power of
the same prime. -/
theorem isLargestPower (h : IsPrimePower a q) : IsLargestPower a q where
  pow_eq := h.pow_eq
  le_exponent := by
    intro b e hb
    rcases Nat.eq_zero_or_pos e with rfl | he
    · exact Nat.zero_le _
    have hdvd : b ∣ q.base ^ q.exponent := by
      rw [h.pow_eq, ← hb]
      exact dvd_pow_self b he.ne'
    obtain ⟨k, -, rfl⟩ := (Nat.dvd_prime_pow h.prime).mp hdvd
    have hexp : k * e = q.exponent := by
      refine Nat.pow_right_injective h.prime.two_le ?_
      show q.base ^ (k * e) = q.base ^ q.exponent
      rw [pow_mul, hb, h.pow_eq]
    have hk : e ∣ q.exponent := ⟨k, by rw [← hexp, Nat.mul_comm]⟩
    exact Nat.le_of_dvd h.exponent_pos hk

end IsPrimePower

/-- The power that a factorization consists of, if it is a single one. -/
def singlePower? : Factorization → Option Power
  | [q] => some q
  | _ => none

/-- **A prime power is a factorization of a single power.** -/
theorem IsPrimeFactorization.singlePower?_eq_some_iff (h : IsPrimeFactorization a fs) :
    singlePower? fs = some q ↔ IsPrimePower a q := by
  constructor
  · intro hq
    match fs, hq with
    | [_], rfl =>
      exact
        { prime := h.prime q List.mem_cons_self
          exponent_pos := h.exponent_pos q List.mem_cons_self
          pow_eq := by rw [← Factorization.value_singleton, h.value_eq] }
  · intro hq
    rw [h.unique hq.isPrimeFactorization]
    rfl

/-! ### Perfect powers -/

/-- The power is `a`, with a base and an exponent that are at least two. -/
structure IsPerfectPower (a : ℕ) (q : Power) : Prop where
  /-- The base is not zero or one. -/
  two_le_base : 2 ≤ q.base
  /-- Nor is the exponent. -/
  two_le_exponent : 2 ≤ q.exponent
  /-- The power is the number. -/
  pow_eq : q.base ^ q.exponent = a

theorem IsPerfectPower.two_le (h : IsPerfectPower a q) : 2 ≤ a := by
  rw [← h.pow_eq]
  calc 2 ≤ q.base := h.two_le_base
    _ ≤ q.base ^ q.exponent := Nat.le_self_pow (by have := h.two_le_exponent; omega) q.base

/-- A proper exponent that is the largest among the proper ones is the largest of all. -/
theorem IsPerfectPower.isLargestPower (h : IsPerfectPower a q)
    (hmax : ∀ p, IsPerfectPower a p → p.exponent ≤ q.exponent) : IsLargestPower a q where
  pow_eq := h.pow_eq
  le_exponent := by
    intro b e hb
    have htwo := h.two_le_exponent
    by_contra hlt
    have hbase : 2 ≤ b := by
      by_contra hsmall
      have hpow : b ^ e ≤ 1 ^ e := Nat.pow_le_pow_left (by omega) e
      rw [hb, Nat.one_pow] at hpow
      have := h.two_le
      omega
    exact hlt (hmax ⟨b, e⟩ ⟨hbase, by show 2 ≤ e; omega, hb⟩)

/-- The power, if its base and its exponent are at least two. -/
def properPower? (q : Power) : Option Power :=
  if 1 < q.base && 1 < q.exponent then some q else none

theorem properPower?_eq_some_iff :
    properPower? p = some q ↔ p = q ∧ 2 ≤ q.base ∧ 2 ≤ q.exponent := by
  rw [properPower?]
  constructor
  · intro h
    obtain ⟨hproper, heq⟩ := Option.ite_none_right_eq_some.mp h
    obtain rfl : p = q := Option.some.inj heq
    rw [Bool.and_eq_true, decide_eq_true_eq, decide_eq_true_eq] at hproper
    exact ⟨rfl, hproper⟩
  · rintro ⟨rfl, hbase, hexp⟩
    exact if_pos (by simpa using ⟨hbase, hexp⟩)

/-- **The perfect power that is found** has the largest exponent of all. -/
theorem properPower?_asPower_eq_some_iff :
    properPower? (asPower a) = some q ↔
      IsPerfectPower a q ∧ ∀ p, IsPerfectPower a p → p.exponent ≤ q.exponent := by
  rw [properPower?_eq_some_iff]
  constructor
  · rintro ⟨rfl, hbase, hexp⟩
    have hperfect : IsPerfectPower a (asPower a) := ⟨hbase, hexp, asPower_pow a⟩
    refine ⟨hperfect, fun p hp => ?_⟩
    exact (isLargestPower_asPower hperfect.two_le).le_exponent _ _ hp.pow_eq
  · rintro ⟨hq, hmax⟩
    exact ⟨(isLargestPower_asPower hq.two_le).unique (hq.isLargestPower hmax), hq.two_le_base,
      hq.two_le_exponent⟩

/-- If no perfect power is found, there is none. -/
theorem properPower?_asPower_eq_none_iff :
    properPower? (asPower a) = none ↔ ¬ ∃ q, IsPerfectPower a q := by
  constructor
  · rintro hnone ⟨q, hq⟩
    have hexp : 2 ≤ (asPower a).exponent :=
      hq.two_le_exponent.trans ((isLargestPower_asPower hq.two_le).le_exponent _ _ hq.pow_eq)
    have hsome := properPower?_eq_some_iff.mpr ⟨rfl, two_le_asPower_base hq.two_le, hexp⟩
    rw [hnone] at hsome
    exact absurd hsome (by simp)
  · intro h
    rw [Option.eq_none_iff_forall_ne_some]
    intro q hq
    exact h ⟨q, (properPower?_asPower_eq_some_iff.mp hq).1⟩

/-! ### The searches -/

namespace Search

variable {α : Type} {n : ℕ} {r : Option Power} {b : Bool}

/-- A search that consults nothing has one answer. -/
theorem coveredAnswer_pure_iff {x y : α} : CoveredAnswer n (pure x) y ↔ y = x := by
  constructor
  · rintro ⟨σ, p, p', -, hrun⟩
    simpa [eq_comm] using congrArg Prod.fst hrun
  · rintro rfl
    exact ⟨⟨{}, PrimeTable.fresh (n + 2) (by omega), none⟩, ⟨Draws.ofScript [], {}⟩, _,
      by simp [PrimeTable.fresh], rfl⟩

theorem primePower?_of_lt_two (ha : a < 2) : primePower? a = pure none := by
  rw [primePower?, if_pos ha]

theorem primePower?_of_two_le (ha : 2 ≤ a) :
    primePower? a = factor a >>= fun fs => pure (singlePower? fs) := by
  rw [primePower?, if_neg (by omega)]
  refine bind_congr fun fs => ?_
  match fs with
  | [] => rfl
  | [_] => rfl
  | _ :: _ :: _ => rfl

/-- **Prime powers.** -/
theorem coveredAnswer_primePower?_iff :
    CoveredAnswer a (primePower? a) r ↔ ∀ q, r = some q ↔ IsPrimePower a q := by
  rcases Nat.lt_or_ge a 2 with ha | ha
  · have hno : ∀ q, ¬ IsPrimePower a q := fun q hq => by
      have := hq.two_le
      omega
    rw [primePower?_of_lt_two ha, coveredAnswer_pure_iff]
    simp only [hno, iff_false]
    exact Option.eq_none_iff_forall_ne_some
  · rw [primePower?_of_two_le ha, coveredAnswer_bind_pure_iff]
    constructor
    · rintro ⟨fs, hfs, rfl⟩ q
      exact ((coveredAnswer_factor_iff (by omega)).mp hfs).singlePower?_eq_some_iff
    · intro hr
      obtain ⟨fs, hfs, hprime⟩ := exists_coveredAnswer_factor (n := a) (by omega)
      refine ⟨fs, hfs, Option.ext fun q => ?_⟩
      rw [hprime.singlePower?_eq_some_iff, hr]

/-- There is an answer. -/
theorem exists_coveredAnswer_primePower? (a : ℕ) : ∃ r, CoveredAnswer a (primePower? a) r := by
  by_cases h : ∃ q, IsPrimePower a q
  · obtain ⟨q, hq⟩ := h
    refine ⟨some q, coveredAnswer_primePower?_iff.mpr fun p => ?_⟩
    rw [Option.some_inj]
    exact ⟨fun hqp => hqp ▸ hq, hq.unique⟩
  · refine ⟨none, coveredAnswer_primePower?_iff.mpr fun p => ?_⟩
    exact iff_of_false (by simp) fun hp => h ⟨p, hp⟩

theorem isOddPrimePower_eq (a : ℕ) :
    isOddPrimePower a = primePower? a >>= fun r => pure (r.any fun q => q.base % 2 == 1) := by
  rw [isOddPrimePower]
  refine bind_congr fun r => ?_
  cases r <;> rfl

/-- **Powers of odd primes.** -/
theorem coveredAnswer_isOddPrimePower_iff :
    CoveredAnswer a (isOddPrimePower a) b ↔
      (b = true ↔ ∃ q, IsPrimePower a q ∧ q.base % 2 = 1) := by
  have hany {r : Option Power} (hr : CoveredAnswer a (primePower? a) r) :
      r.any (fun q => q.base % 2 == 1) = true ↔ ∃ q, IsPrimePower a q ∧ q.base % 2 = 1 := by
    simp only [Option.any_eq_true, coveredAnswer_primePower?_iff.mp hr, beq_iff_eq]
  rw [isOddPrimePower_eq, coveredAnswer_bind_pure_iff]
  constructor
  · rintro ⟨r, hr, rfl⟩
    exact hany hr
  · intro hb
    obtain ⟨r, hr⟩ := exists_coveredAnswer_primePower? a
    exact ⟨r, hr, Bool.eq_iff_iff.mpr ((hany hr).trans hb.symm)⟩

/-- **The largest power** is the one that is found without a factorization, also for zero and one,
which are not factored. -/
theorem coveredAnswer_asPower_iff :
    CoveredAnswer a (Search.asPower a) q ↔ q = ExactNumerics.asPower a := by
  rcases Nat.lt_or_ge a 2 with ha | ha
  · have hself : ExactNumerics.asPower a = ⟨a, 1⟩ := by
      match a, ha with
      | 0, _ => rfl
      | 1, _ => rfl
    rw [asPower_of_lt_two ha, coveredAnswer_pure_iff, hself]
  · rw [asPower_of_two_le ha]
    refine coveredAnswer_of_factor_iff (by omega) fun fs hfs => ?_
    exact (hfs.isLargestPower ha).unique (isLargestPower_asPower ha)

theorem perfectPower?_eq (a : ℕ) :
    perfectPower? a = Search.asPower a >>= fun q => pure (properPower? q) := rfl

theorem coveredAnswer_perfectPower?_iff :
    CoveredAnswer a (perfectPower? a) r ↔ properPower? (ExactNumerics.asPower a) = r := by
  rw [perfectPower?_eq, coveredAnswer_bind_pure_iff]
  simp only [coveredAnswer_asPower_iff, exists_eq_left]

/-- **Prime powers and perfect powers are told right.** Whatever the settings, the table and the
draws are in each call, for a covered number the answers are these and no others. A power of a prime
is found exactly if the number is one, and there is one way at most to write it so. A perfect power
is found exactly if the number is one, and its exponent is the largest. A power of a prime that is
found is found as a perfect power as well, unless it is the prime itself. -/
theorem powers_classified (a : ℕ) :
    (∀ r, CoveredAnswer a (primePower? a) r ↔ ∀ q, r = some q ↔ IsPrimePower a q) ∧
      (∀ p q, IsPrimePower a p → IsPrimePower a q → p = q) ∧
      (∀ b, CoveredAnswer a (isOddPrimePower a) b ↔
        (b = true ↔ ∃ q, IsPrimePower a q ∧ q.base % 2 = 1)) ∧
      (∀ r, CoveredAnswer a (perfectPower? a) r ↔
        ∀ q, r = some q ↔
          IsPerfectPower a q ∧ ∀ p, IsPerfectPower a p → p.exponent ≤ q.exponent) ∧
      (∀ r, CoveredAnswer a (perfectPower? a) r → (r = none ↔ ¬ ∃ q, IsPerfectPower a q)) ∧
      ∀ q r, CoveredAnswer a (primePower? a) (some q) → CoveredAnswer a (perfectPower? a) r →
        r = if 2 ≤ q.exponent then some q else none := by
  refine ⟨fun r => coveredAnswer_primePower?_iff, fun p q hp hq => hp.unique hq,
    fun b => coveredAnswer_isOddPrimePower_iff, fun r => ?_, fun r hr => ?_, fun q r hq hr => ?_⟩
  · rw [coveredAnswer_perfectPower?_iff]
    constructor
    · rintro rfl q
      exact properPower?_asPower_eq_some_iff
    · intro hr
      exact Option.ext fun q => properPower?_asPower_eq_some_iff.trans (hr q).symm
  · obtain rfl := coveredAnswer_perfectPower?_iff.mp hr
    exact properPower?_asPower_eq_none_iff
  · obtain rfl := coveredAnswer_perfectPower?_iff.mp hr
    have hprime : IsPrimePower a q := (coveredAnswer_primePower?_iff.mp hq q).mp rfl
    rw [(isLargestPower_asPower hprime.two_le).unique hprime.isLargestPower, properPower?]
    have hbase : 1 < q.base := hprime.prime.one_lt
    simp [hbase, Nat.lt_iff_add_one_le]

/-- The sixth power of three is a power of an odd prime, and a perfect power. -/
theorem powers_classified_three_pow_six :
    CoveredAnswer 729 (primePower? 729) (some ⟨3, 6⟩) ∧
      CoveredAnswer 729 (isOddPrimePower 729) true ∧
      CoveredAnswer 729 (perfectPower? 729) (some ⟨3, 6⟩) := by
  obtain ⟨hprime, hunique, hodd, hperfect, -, hboth⟩ := powers_classified 729
  have hpower : IsPrimePower 729 ⟨3, 6⟩ := ⟨by decide, by decide, by decide⟩
  have hfound : CoveredAnswer 729 (primePower? 729) (some ⟨3, 6⟩) :=
    (hprime _).mpr fun q => ⟨fun hq => Option.some.inj hq ▸ hpower,
      fun hq => congrArg some (hunique _ _ hpower hq)⟩
  refine ⟨hfound, (hodd true).mpr (iff_of_true rfl ⟨_, hpower, rfl⟩), ?_⟩
  have hanswer : CoveredAnswer 729 (perfectPower? 729) _ := coveredAnswer_perfectPower?_iff.mpr rfl
  rwa [hboth _ _ hfound hanswer] at hanswer

end Search

end ExactNumerics
