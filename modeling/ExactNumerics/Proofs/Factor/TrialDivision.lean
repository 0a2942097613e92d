import ExactNumerics.Factor.TrialDivision
import ExactNumerics.Proofs.Factor.Factorization
import ExactNumerics.Proofs.Integer.Power
import ExactNumerics.Proofs.Prime.Neighbours

/-!
# Trial division

What carries the division is that no prime below the next divisor divides what is left. It does not
depend on the divisors being prime: none of the primes is skipped, so a composite among the
divisors has prime factors that were divided out before it came up, and cannot divide any more.
So only true primes are ever divided out, and when the divisors have passed what is left, that is
one and can be dropped. A wrong answer about primality can only stop the division too early, with
a composite for a last factor.

## Main definitions

* `Dividing N p n found` — the state of the division of `N` before the divisor `p`

## Main results

* `Dividing.skip`, `Dividing.divideOut`, `Dividing.last`, `Dividing.done` — what a round preserves
* `Search.returns_divideFrom` — the whole division
* `Search.returns_trialDivision` — the factorization that it finds
-/

namespace ExactNumerics

/-- The state of the division of `N`: the powers in `found` were divided out, `n` is left, and `p`
is the next divisor. -/
structure Dividing (N p n : ℕ) (found : Factorization) : Prop where
  /-- Divisors are proper. -/
  two_le : 2 ≤ p
  /-- Something is left. -/
  pos : 0 < n
  /-- Nothing was lost. -/
  value_mul : found.value * n = N
  /-- What is left has no prime factor below the next divisor. -/
  le_of_dvd : ∀ r : ℕ, r.Prime → r ∣ n → p ≤ r
  /-- The divisors were increasing. -/
  increasing : found.Pairwise fun f g => f.base < g.base
  /-- The divisors so far were smaller. -/
  base_lt : ∀ f ∈ found, f.base < p
  /-- The ones that divided were prime. -/
  prime : ∀ f ∈ found, f.base.Prime
  /-- They divided at least once. -/
  exponent_pos : ∀ f ∈ found, 0 < f.exponent

namespace Dividing

variable {N p n q limit : ℕ} {found : Factorization}

theorem start (hN : 0 < N) : Dividing N 2 N [] where
  two_le := le_rfl
  pos := hN
  value_mul := one_mul N
  le_of_dvd _ hr _ := hr.two_le
  increasing := .nil
  base_lt := by simp
  prime := by simp
  exponent_pos := by simp

/-- A divisor that divides what is left is prime. -/
theorem prime_of_dvd (h : Dividing N p n found) (hdvd : p ∣ n) : p.Prime := by
  have hne : p ≠ 1 := by have := h.two_le; omega
  have hmin : p ≤ p.minFac :=
    h.le_of_dvd _ (Nat.minFac_prime hne) ((Nat.minFac_dvd p).trans hdvd)
  have heq : p.minFac = p := le_antisymm (Nat.minFac_le (by have := h.two_le; omega)) hmin
  exact heq ▸ Nat.minFac_prime hne

theorem le (h : Dividing N p n found) : n ≤ N := by
  rw [← h.value_mul]
  exact Nat.le_mul_of_pos_left n (Factorization.value_pos fun f hf => (h.prime f hf).pos)

/-! ### What a round preserves -/

/-- The divisor does not divide. -/
theorem skip (h : Dividing N p n found) (hndvd : ¬ p ∣ n) (hq : NextCandidate limit p q) :
    Dividing N q n found where
  two_le := h.two_le.trans hq.lt.le
  pos := h.pos
  value_mul := h.value_mul
  le_of_dvd r hr hdvd := by
    have hne : p ≠ r := fun heq => hndvd (heq ▸ hdvd)
    exact hq.le_of_prime r hr (lt_of_le_of_ne (h.le_of_dvd r hr hdvd) hne)
  increasing := h.increasing
  base_lt f hf := (h.base_lt f hf).trans hq.lt
  prime := h.prime
  exponent_pos := h.exponent_pos

/-- The divisor divides, and is divided out as often as it can be. -/
theorem divideOut (h : Dividing N p n found) (hdvd : p ∣ n) (hq : NextCandidate limit p q) :
    Dividing N q (n / p ^ maxDividingPower p n) (found ++ [⟨p, maxDividingPower p n⟩]) where
  two_le := h.two_le.trans hq.lt.le
  pos := Nat.div_pos (Nat.le_of_dvd h.pos (pow_maxDividingPower_dvd h.two_le n))
    (Nat.pow_pos (by have := h.two_le; omega))
  value_mul := by
    have hmul := Nat.mul_div_cancel' (pow_maxDividingPower_dvd h.two_le n)
    rw [Factorization.value_append, Factorization.value_singleton, mul_assoc, hmul, h.value_mul]
  le_of_dvd r hr hdvd' := by
    have hne : p ≠ r := fun heq =>
      not_dvd_div_pow_maxDividingPower h.two_le h.pos (heq ▸ hdvd')
    have hle := h.le_of_dvd r hr
      (hdvd'.trans (Nat.div_dvd_of_dvd (pow_maxDividingPower_dvd h.two_le n)))
    exact hq.le_of_prime r hr (lt_of_le_of_ne hle hne)
  increasing := List.pairwise_append.mpr
    ⟨h.increasing, List.pairwise_singleton _ _, by simpa using h.base_lt⟩
  base_lt := by
    rw [List.forall_mem_append, List.forall_mem_singleton]
    exact ⟨fun f hf => (h.base_lt f hf).trans hq.lt, hq.lt⟩
  prime := by
    rw [List.forall_mem_append, List.forall_mem_singleton]
    exact ⟨h.prime, h.prime_of_dvd hdvd⟩
  exponent_pos := by
    rw [List.forall_mem_append, List.forall_mem_singleton]
    exact ⟨h.exponent_pos, maxDividingPower_pos h.two_le h.pos hdvd⟩

/-! ### How the division ends -/

/-- The divisors have passed what is left: that is one. -/
theorem done (h : Dividing N p n found) (hlt : n < p) : FactorizationAnswer limit N found := by
  have hone : n = 1 := by
    by_contra hne
    have hmin := h.le_of_dvd _ (Nat.minFac_prime hne) (Nat.minFac_dvd n)
    have hle := Nat.minFac_le h.pos
    omega
  refine ⟨⟨h.increasing, fun f hf => (h.prime f hf).two_le, h.exponent_pos, ?_⟩, fun _ => h.prime⟩
  rw [← h.value_mul, hone, mul_one]

/-- What is left is the last factor. -/
theorem last (h : Dividing N p n found) (hle : p ≤ n) (hprime : n < limit → n.Prime) :
    FactorizationAnswer limit N (found ++ [⟨n, 1⟩]) where
  increasing := List.pairwise_append.mpr
    ⟨h.increasing, List.pairwise_singleton _ _,
      by simpa using fun f hf => (h.base_lt f hf).trans_le hle⟩
  two_le_base := by
    rw [List.forall_mem_append, List.forall_mem_singleton]
    exact ⟨fun f hf => (h.prime f hf).two_le, h.two_le.trans hle⟩
  exponent_pos := by
    rw [List.forall_mem_append, List.forall_mem_singleton]
    exact ⟨h.exponent_pos, Nat.one_pos⟩
  value_eq := by simpa using h.value_mul
  prime_of_lt hN := by
    rw [List.forall_mem_append, List.forall_mem_singleton]
    exact ⟨h.prime, hprime (h.le.trans_lt hN)⟩

end Dividing

namespace Search

variable {σ : Surroundings} {d : Draws} {N : ℕ}

/-- One round of the division: a test whether what is left is the last factor, and a division. -/
theorem divideFrom_succ (rounds p n : ℕ) (found : Factorization) :
    divideFrom (rounds + 1) p n found =
      if n < p then pure found
      else (if n = p then pure true else isPrime n) >>= fun last =>
        if last then pure (found ++ [⟨n, 1⟩])
        else nextPrime p >>= fun q =>
          if n % p = 0 then
            divideFrom rounds q.toNat (n / p ^ maxDividingPower p n)
              (found ++ [⟨p, maxDividingPower p n⟩])
          else divideFrom rounds q.toNat n found := by
  rw [divideFrom]
  split_ifs <;> rfl

/-- Whether what is left is the last factor. The next divisor is one if it is all that is left. -/
theorem returns_isLast (hσ : σ.settings.HasTrialCount) {p n : ℕ} {found : Factorization}
    (h : Dividing N p n found) :
    Returns (if n = p then pure true else isPrime n) σ d fun b =>
      b = true → n < σ.table.limit → n.Prime := by
  refine .ite (fun heq => .pure fun _ _ => ?_) fun _ => ?_
  · exact heq ▸ h.prime_of_dvd (heq ▸ dvd_rfl)
  · exact (returns_isPrime hσ n).meets fun b _ hb htrue hlt => (hb.exact (.inl hlt)).mp htrue

/-- **The whole division.** Each round moves to a larger divisor, and after the last divisor that
is not larger than what is left there is one more round to see that. -/
theorem returns_divideFrom (hσ : σ.settings.HasTrialCount) {rounds p n : ℕ} {found : Factorization}
    (h : Dividing N p n found) (hpos : 0 < rounds) (hrounds : n + 2 ≤ p + rounds) :
    Returns (divideFrom rounds p n found) σ d (FactorizationAnswer σ.table.limit N) := by
  induction rounds generalizing p n found d with
  | zero => omega
  | succ rounds ih =>
    rw [divideFrom_succ]
    refine .ite (fun hlt => .pure (h.done hlt)) fun hge => ?_
    refine (returns_isLast hσ h).bind fun last d' _ hprime => ?_
    refine .ite (fun htrue => .pure (h.last (by omega) (hprime htrue))) fun _ => ?_
    refine (returns_nextPrime hσ p).bind fun q d'' _ hq => ?_
    have hlt := hq.lt
    refine .ite (fun hmod => ?_) fun hmod => ?_
    · have hle : n / p ^ maxDividingPower p n ≤ n := Nat.div_le_self _ _
      exact ih (h.divideOut (Nat.dvd_of_mod_eq_zero hmod) hq) (by omega) (by omega)
    · have hndvd : ¬ p ∣ n := fun hdvd => hmod (Nat.mod_eq_zero_of_dvd hdvd)
      exact ih (h.skip hndvd hq) (by omega) (by omega)

/-- **The factorization by trial division.** It is always found. -/
theorem returns_trialDivision (hσ : σ.settings.HasTrialCount) (hN : 0 < N) :
    Returns (trialDivision N) σ d (FactorizationAnswer σ.table.limit N) :=
  returns_divideFrom hσ (.start hN) hN (by omega)

end Search

end ExactNumerics
