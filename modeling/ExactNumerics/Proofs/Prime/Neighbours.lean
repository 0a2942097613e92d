import ExactNumerics.Proofs.Prime.Primality
import Mathlib.NumberTheory.Bertrand

/-!
# The primes next to a number

A scan steps over a candidate only when it was answered that it is not prime, and such an answer is
always right. So a scan stops at the first prime at the latest, and before it only at a composite
that was taken for a prime, which has to lie past the table. Both scans look at odd numbers only, so
two is the business of their callers.

Upwards there is always a prime to stop at: the one that follows `n` is at most `2 * n`, so the
candidates that the scan may look at never run out. Downwards the scan ends at three.

A scan that stays inside the table makes no trials. Hence what it needs is not that the tolerance
has a number of trials, but only that the numbers up to its last candidate get an answer.

## Main definitions

* `NextCandidate limit n q` — what is known of the number found above `n`
* `PreviousCandidate limit n q` — what is known of the number found below `n`

## Main results

* `Search.returns_scanUp`, `Search.returns_scanDown` — the scans
* `Search.returns_scanAbove`, `Search.returns_scanBelow` — the scans next to a number
* `Search.returns_nextPrime` — the number found above a natural number
-/

namespace ExactNumerics

/-- What is known of the number `q` found above `n`, with a table of the given limit. -/
structure NextCandidate (limit n q : ℕ) : Prop where
  /-- It lies above. -/
  lt : n < q
  /-- No prime was skipped. -/
  le_of_prime : ∀ r : ℕ, r.Prime → n < r → q ≤ r
  /-- Inside the table it is prime. -/
  prime_of_lt : q < limit → q.Prime

/-- A prime with no prime between `n` and it is what should be found. -/
theorem nextCandidate_of_isLeast {n q : ℕ} (limit : ℕ) (hq : IsLeast {s : ℕ | s.Prime ∧ n < s} q) :
    NextCandidate limit n q where
  lt := hq.1.2
  le_of_prime := fun _ hr hlt => hq.2 ⟨hr, hlt⟩
  prime_of_lt := fun _ => hq.1.1

/-- What is known of the number `q` found below `n`, with a table of the given limit. -/
structure PreviousCandidate (limit n q : ℕ) : Prop where
  /-- It lies below. -/
  lt : q < n
  /-- No prime was skipped. -/
  le_of_prime : ∀ r : ℕ, r.Prime → r < n → r ≤ q
  /-- Inside the table it is prime. -/
  prime_of_le : n ≤ limit → q.Prime

/-- There is a least prime above every number. -/
theorem exists_isLeast_prime (n : ℕ) : ∃ r, IsLeast {s : ℕ | s.Prime ∧ n < s} r := by
  classical
  have hex : ∃ s : ℕ, s.Prime ∧ n < s := by
    obtain ⟨s, hle, hs⟩ := Nat.exists_infinite_primes (n + 1)
    exact ⟨s, hs, hle⟩
  exact ⟨Nat.find hex, Nat.find_spec hex, fun s hs => Nat.find_min' hex hs⟩

/-- The least prime above a positive number is at most twice that number. -/
theorem le_two_mul_of_isLeast_prime {n r : ℕ} (hn : n ≠ 0)
    (hr : IsLeast {s : ℕ | s.Prime ∧ n < s} r) : r ≤ 2 * n := by
  obtain ⟨s, hs, hlt, hle⟩ := Nat.exists_prime_lt_and_le_two_mul n hn
  exact (hr.2 ⟨hs, hlt⟩).trans hle

namespace Search

variable {σ : Surroundings} {d : Draws} {n : ℕ}

/-! ### Upwards -/

/-- **The scan upwards.** It looks at one candidate after the other up to an odd prime at the
latest. -/
theorem returns_scanUp {more candidate r : ℕ} (hσ : σ.Answers r)
    (hr : r.Prime) (hodd : r % 2 = 1) (hcandidate : candidate % 2 = 1) (hle : candidate ≤ r)
    (hmore : r < candidate + 2 * more) :
    Returns (scanUp more candidate) σ d fun q =>
      candidate ≤ q ∧ (∀ s : ℕ, s.Prime → s % 2 = 1 → candidate ≤ s → q ≤ s) ∧
        (q < σ.table.limit → q.Prime) := by
  induction more generalizing candidate d with
  | zero => omega
  | succ more ih =>
    refine (returns_isPrime_of_answers (hσ.mono hle)).bind fun b d' _ hb => ?_
    refine .ite (fun htrue => ?_) fun hfalse => ?_
    · exact .pure ⟨le_rfl, fun _ _ _ h => h, fun hlt => (hb.exact (.inl hlt)).mp htrue⟩
    · have hcomposite : ¬ candidate.Prime := fun h => hfalse (hb.of_prime h)
      have hne : candidate ≠ r := fun h => hcomposite (h ▸ hr)
      refine (ih (by omega) (by omega) (by omega)).meets fun q _ ⟨hq, hfirst, hprime⟩ => ?_
      refine ⟨by omega, fun s hs hsodd hcs => hfirst s hs hsodd ?_, hprime⟩
      have hsne : candidate ≠ s := fun h => hcomposite (h ▸ hs)
      omega

/-- The number found above a number from three on, by the scan over the odd numbers. -/
theorem returns_scanAbove {r : ℕ} (hr : IsLeast {s : ℕ | s.Prime ∧ n < s} r) (hσ : σ.Answers r)
    (hn : 3 ≤ n) :
    Returns (scanUp n (if n % 2 = 0 then n + 1 else n + 2)) σ d
      (NextCandidate σ.table.limit n) := by
  have hle := le_two_mul_of_isLeast_prime (by omega) hr
  obtain ⟨hprime, hlt⟩ := hr.1
  have hodd : ∀ s : ℕ, s.Prime → n < s → s % 2 = 1 := fun s hs hns =>
    (hs.eq_two_or_odd).resolve_left (by omega)
  have hrodd := hodd r hprime hlt
  -- the first candidate is the first odd number above `n`
  obtain ⟨c, hc, hcodd, hnc, hcfirst⟩ : ∃ c, (if n % 2 = 0 then n + 1 else n + 2) = c ∧
      c % 2 = 1 ∧ n < c ∧ ∀ s, n < s → s % 2 = 1 → c ≤ s := by
    refine ⟨_, rfl, ?_⟩
    split <;> exact ⟨by omega, by omega, fun s _ _ => by omega⟩
  rw [hc]
  have hcr := hcfirst r hlt hrodd
  refine (returns_scanUp hσ hprime hrodd hcodd hcr (by omega)).meets
    fun q _ ⟨hq, hfirst, hinside⟩ => ?_
  exact ⟨by omega, fun s hs hns => hfirst s hs (hodd s hs hns) (hcfirst s hns (hodd s hs hns)),
    hinside⟩

/-- The number found above a natural number. -/
theorem returns_primeAbove {r : ℕ} (hr : IsLeast {s : ℕ | s.Prime ∧ n < s} r)
    (hσ : σ.Answers r) :
    Returns (primeAbove n) σ d fun x => ∃ q : ℕ, x = q ∧ NextCandidate σ.table.limit n q := by
  refine .ite (fun hlt => .pure ⟨2, rfl, ?_⟩) fun hge => .ite (fun htwo => .pure ⟨3, rfl, ?_⟩)
    fun hne => ?_
  · exact nextCandidate_of_isLeast _ ⟨⟨Nat.prime_two, hlt⟩, fun s hs => hs.1.two_le⟩
  · subst htwo
    exact nextCandidate_of_isLeast _ ⟨⟨Nat.prime_three, by decide⟩, fun s hs => hs.2⟩
  · refine (returns_scanAbove hr hσ (by omega)).bind fun q d' _ hq => ?_
    exact .pure ⟨q, rfl, hq⟩

/-- **The number found above a natural number**, if there is a number of trials. -/
theorem returns_nextPrime (hσ : σ.settings.HasTrialCount) (n : ℕ) :
    Returns (nextPrime n) σ d fun x => NextCandidate σ.table.limit n x.toNat := by
  have hnn : ¬ (n : ℤ) < 0 := by omega
  obtain ⟨r, hr⟩ := exists_isLeast_prime n
  rw [nextPrime, if_neg hnn, Int.natAbs_natCast]
  refine (returns_primeAbove hr (.inl hσ)).meets fun x _ hx => ?_
  obtain ⟨q, rfl, hq⟩ := hx
  exact hq

/-! ### Downwards -/

/-- **The scan downwards.** It looks at one candidate after the other down to three at the
latest. -/
theorem returns_scanDown {candidate : ℕ} (hσ : σ.Answers candidate)
    (hcandidate : candidate % 2 = 1) (h3 : 3 ≤ candidate) :
    Returns (scanDown candidate) σ d fun q =>
      q ≤ candidate ∧ (∀ s : ℕ, s.Prime → s % 2 = 1 → s ≤ candidate → s ≤ q) ∧
        (candidate < σ.table.limit → q.Prime) := by
  induction candidate using Nat.strong_induction_on generalizing d with
  | _ candidate ih =>
    rw [scanDown]
    refine (returns_isPrime_of_answers hσ).bind fun b d' _ hb => ?_
    refine .ite (fun htrue => ?_) fun hfalse => ?_
    · exact .pure ⟨le_rfl, fun _ _ _ h => h, fun hlt => (hb.exact (.inl hlt)).mp htrue⟩
    · have hcomposite : ¬ candidate.Prime := fun h => hfalse (hb.of_prime h)
      -- three is prime, so the scan is not at its end yet
      have hne : candidate ≠ 3 := fun h => hcomposite (h ▸ Nat.prime_three)
      refine .ite (fun hle => absurd hle (by omega)) fun _ => ?_
      refine (ih (candidate - 2) (by omega) (hσ.mono (by omega)) (by omega) (by omega)).meets
        fun q _ ⟨hq, hfirst, hprime⟩ => ?_
      refine ⟨by omega, fun s hs hsodd hsc => hfirst s hs hsodd ?_, fun hlt => hprime (by omega)⟩
      have hsne : s ≠ candidate := fun h => hcomposite (h ▸ hs)
      omega

/-- The number found below a number from four on, by the scan over the odd numbers. -/
theorem returns_scanBelow (hσ : σ.Answers (n - 1)) (hn : 4 ≤ n) :
    Returns (scanDown (if n % 2 = 0 then n - 1 else n - 2)) σ d
      (PreviousCandidate σ.table.limit n) := by
  -- the first candidate is the last odd number below `n`
  obtain ⟨c, hc, hcodd, h3, hcn, hclast⟩ : ∃ c, (if n % 2 = 0 then n - 1 else n - 2) = c ∧
      c % 2 = 1 ∧ 3 ≤ c ∧ c < n ∧ ∀ s, s < n → s % 2 = 1 → s ≤ c := by
    refine ⟨_, rfl, ?_⟩
    split <;> exact ⟨by omega, by omega, by omega, fun s _ _ => by omega⟩
  rw [hc]
  refine (returns_scanDown (hσ.mono (by omega)) hcodd h3).meets fun q _ ⟨hq, hlast, hinside⟩ => ?_
  refine ⟨by omega, fun s hs hsn => ?_, fun hle => hinside (by omega)⟩
  rcases hs.eq_two_or_odd with rfl | hodd
  · have := hlast 3 Nat.prime_three (by decide) h3
    omega
  · exact hlast s hs hodd (hclast s hsn hodd)

end Search

end ExactNumerics
