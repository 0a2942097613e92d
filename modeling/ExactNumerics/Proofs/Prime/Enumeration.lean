import ExactNumerics.Proofs.Prime.SignedNeighbours
import Mathlib.NumberTheory.PrimeCounting

/-!
# Enumerations of the primes

The primes below a bound can be read off the table, or found one after the other by searching
upwards from zero or downwards from the bound. The common yardstick is the `i`-th prime,
`Nat.nth Nat.Prime i`, together with the number of primes below `z`, which is `z.primeCounting'`.
From `z` the search upwards finds the prime whose number is the count of the primes up to `z`, and
the search downwards the one before the count of the primes below `z`. Each step moves the count by
one, and that is the induction over a chain of steps.

Everything happens inside the table, so no trial is made. The settings and the draws do not matter,
also when the bound is the limit of the table.

## Main results

* `filter_prime_range` — the primes below a bound by their numbers
* `Search.returns_nextPrimes`, `Search.returns_previousPrimes`, `Search.returns_nthPrime` — what the
  chains of searches find
* `Search.enumerations_agree` — the enumerations agree
-/

namespace ExactNumerics

/-! ### Primes by their numbers -/

section Nth

variable {z i : ℕ}

/-- The prime numbered by the count of the primes up to `z` is the least one above `z`. -/
theorem isLeast_nth_prime (hi : (z + 1).primeCounting' = i) :
    IsLeast {s : ℤ | SignedPrime s ∧ (z : ℤ) < s} (Nat.nth Nat.Prime i : ℕ) := by
  have hlt : z + 1 ≤ Nat.nth Nat.Prime i := by
    rw [← hi]
    exact Nat.le_nth_count Nat.infinite_setOfPred_prime (z + 1)
  refine ⟨⟨Nat.prime_nth_prime i, by omega⟩, ?_⟩
  rintro s ⟨hs, hzs⟩
  have hcount : i ≤ s.natAbs.primeCounting' := by
    rw [← hi]
    exact Nat.monotone_primeCounting' (by omega)
  have hle : Nat.nth Nat.Prime i ≤ s.natAbs := by
    calc Nat.nth Nat.Prime i ≤ Nat.nth Nat.Prime s.natAbs.primeCounting' :=
          Nat.nth_monotone Nat.infinite_setOfPred_prime hcount
      _ = s.natAbs := Nat.nth_count hs
  omega

/-- The prime numbered just below the count of the primes below `z` is the greatest one below
`z`. -/
theorem isGreatest_nth_prime (hi : z.primeCounting' = i + 1) :
    IsGreatest {s : ℤ | SignedPrime s ∧ s < (z : ℤ)} (Nat.nth Nat.Prime i : ℕ) := by
  have hlt : Nat.nth Nat.Prime i < z := Nat.nth_lt_of_lt_count (by
    rw [← Nat.primeCounting', hi]
    exact Nat.lt_succ_self i)
  refine ⟨⟨Nat.prime_nth_prime i, by omega⟩, ?_⟩
  rintro s ⟨hs, hsz⟩
  by_cases hneg : s < 0
  · omega
  have hcount : s.natAbs.primeCounting' < z.primeCounting' :=
    Nat.count_strict_mono hs (by omega)
  have hle : s.natAbs ≤ Nat.nth Nat.Prime i := by
    calc s.natAbs = Nat.nth Nat.Prime s.natAbs.primeCounting' := (Nat.nth_count hs).symm
      _ ≤ Nat.nth Nat.Prime i :=
          Nat.nth_monotone Nat.infinite_setOfPred_prime (by omega)
  omega

theorem primeCounting'_nth_add_one (i : ℕ) : (Nat.nth Nat.Prime i + 1).primeCounting' = i + 1 :=
  Nat.count_nth_succ_of_infinite Nat.infinite_setOfPred_prime i

/-- **The primes below a bound by their numbers.** -/
theorem filter_prime_range (m : ℕ) :
    (List.range m).filter Nat.Prime = (List.range m.primeCounting').map (Nat.nth Nat.Prime) := by
  induction m with
  | zero => rfl
  | succ m ih =>
    rw [List.range_succ, List.filter_append, ih, Nat.primeCounting', Nat.count_succ]
    by_cases hm : m.Prime
    · rw [if_pos hm, List.range_succ, List.map_append, List.map_singleton, Nat.nth_count hm]
      simp [hm]
    · rw [if_neg hm]
      simp [hm]

end Nth

namespace Search

variable {σ : Surroundings} {d : Draws} {z i k : ℕ}

/-! ### Chains of searches -/

/-- **A chain of searches upwards** finds the primes with the next numbers. -/
theorem returns_nextPrimes (hi : (z + 1).primeCounting' = i)
    (hk : ∀ j < k, Nat.nth Nat.Prime (i + j) < σ.table.limit) :
    Returns (nextPrimes z k) σ d fun qs =>
      qs = (List.range' i k).map fun j => ((Nat.nth Nat.Prime j : ℕ) : ℤ) := by
  induction k generalizing z i d with
  | zero => exact .pure rfl
  | succ k ih =>
    have hleast := isLeast_nth_prime hi
    have hlt : Nat.nth Nat.Prime i < σ.table.limit := hk 0 (by omega)
    have hz : z < Nat.nth Nat.Prime i := by have := hleast.1.2; omega
    refine (returns_nextPrime_of_lt_limit hleast (by omega) (by omega)).bind fun q d' _ hq => ?_
    subst hq
    refine (ih (primeCounting'_nth_add_one i) fun j hj => ?_).bind fun qs d'' _ hqs => ?_
    · have hnext := hk (j + 1) (by omega)
      rwa [← Nat.add_assoc, Nat.add_right_comm] at hnext
    · refine .pure ?_
      rw [hqs, List.range'_succ, List.map_cons]

/-- **A chain of searches downwards** finds the primes with the previous numbers. -/
theorem returns_previousPrimes (hi : z.primeCounting' = i + k) (hz : z ≤ σ.table.limit) :
    Returns (previousPrimes z k) σ d fun qs =>
      qs = ((List.range' i k).map fun j => ((Nat.nth Nat.Prime j : ℕ) : ℤ)).reverse := by
  induction k generalizing z d with
  | zero => exact .pure rfl
  | succ k ih =>
    have hgreatest := isGreatest_nth_prime (i := i + k) hi
    have hlt : Nat.nth Nat.Prime (i + k) < z := by have := hgreatest.1.2; omega
    refine (returns_previousPrime_of_lt_limit hgreatest (by omega) (by omega)).bind
      fun q d' _ hq => ?_
    subst hq
    refine (ih (Nat.primeCounting'_nth_eq (i + k)) (by omega)).bind fun qs d'' _ hqs => ?_
    refine .pure ?_
    rw [hqs, List.range'_1_concat, List.map_append, List.map_singleton, List.reverse_append,
      List.reverse_singleton, List.singleton_append]

/-- Steps upwards from the prime with the number `i`. -/
theorem returns_advance (hk : Nat.nth Nat.Prime (i + k) < σ.table.limit) :
    Returns (advance k (Nat.nth Nat.Prime i : ℕ)) σ d fun q =>
      q = (Nat.nth Nat.Prime (i + k) : ℕ) := by
  induction k generalizing i d with
  | zero => exact .pure rfl
  | succ k ih =>
    have hleast := isLeast_nth_prime (primeCounting'_nth_add_one i)
    have hle : Nat.nth Nat.Prime (i + 1) ≤ Nat.nth Nat.Prime (i + (k + 1)) :=
      Nat.nth_monotone Nat.infinite_setOfPred_prime (by omega)
    have hlt : Nat.nth Nat.Prime i < Nat.nth Nat.Prime (i + 1) := by have := hleast.1.2; omega
    refine (returns_nextPrime_of_lt_limit hleast (by omega) (by omega)).bind fun q d' _ hq => ?_
    subst hq
    rw [← Nat.add_assoc, Nat.add_right_comm] at hk ⊢
    exact ih hk

/-- **The numbered prime** is the prime with that number. -/
theorem returns_nthPrime (hi : Nat.nth Nat.Prime i < σ.table.limit) :
    Returns (nthPrime i) σ d fun q => q = (Nat.nth Nat.Prime i : ℕ) := by
  have hadvance := returns_advance (σ := σ) (d := d) (i := 0) (k := i) (by rwa [Nat.zero_add])
  rwa [Nat.nth_prime_zero_eq_two, Nat.zero_add] at hadvance

/-- Searches made for each item of a list, one after the other. -/
theorem returns_mapM {α β : Type} {f : α → Search β} {g : α → β} {l : List α}
    (h : ∀ a ∈ l, ∀ d, Returns (f a) σ d fun b => b = g a) :
    Returns (l.mapM f) σ d fun bs => bs = l.map g := by
  induction l generalizing d with
  | nil => exact .pure rfl
  | cons a l ih =>
    rw [List.mapM_cons]
    refine (h a List.mem_cons_self d).bind fun b d' _ hb => ?_
    refine (ih fun a' ha' => h a' (List.mem_cons_of_mem a ha')).bind fun bs d'' _ hbs => ?_
    refine .pure ?_
    rw [hb, hbs, List.map_cons]

theorem returns_primesBelow {m : ℕ} (hm : m ≤ σ.table.limit) :
    Returns (primesBelow m) σ d fun ps => ps = (List.range m).filter Nat.Prime := by
  refine Meets.bind (Q := fun t _ => t = σ.table) (.table rfl) ?_
  rintro t d' - rfl
  refine .ite (fun _ => ?_) fun hgt => absurd hm hgt
  exact .of_run fun _ => ⟨_, _, _, rfl, .refl d', σ.table.primesBelow_eq hm⟩

/-! ### The enumerations -/

/-- **The enumerations agree.** For every bound up to the limit of the table, what is read off the
table is strictly increasing and holds exactly the primes below the bound. As many searches upwards
from zero find the same list, so do the primes by their numbers, and as many searches downwards from
the bound find it in reverse. -/
theorem enumerations_agree {m : ℕ} (hm : m ≤ σ.table.limit) (p : Progress) :
    ∃ ps : List ℕ, ps.Pairwise (· < ·) ∧ (∀ r, r ∈ ps ↔ r.Prime ∧ r < m) ∧
      (∃ p', (primesBelow m).run σ p = (.ok ps, p')) ∧
      (∃ p', (nextPrimes 0 ps.length).run σ p = (.ok (ps.map fun r : ℕ => (r : ℤ)), p')) ∧
      (∃ p', ((List.range ps.length).mapM nthPrime).run σ p =
        (.ok (ps.map fun r : ℕ => (r : ℤ)), p')) ∧
      ∃ p', (previousPrimes m ps.length).run σ p =
        (.ok (ps.map fun r : ℕ => (r : ℤ)).reverse, p') := by
  have hnth := filter_prime_range m
  obtain ⟨ps, hps⟩ : ∃ ps, ps = (List.range m).filter Nat.Prime := ⟨_, rfl⟩
  rw [← hps] at hnth
  have hlength : ps.length = m.primeCounting' := by rw [hnth, List.length_map, List.length_range]
  have hcast : (ps.map fun r : ℕ => (r : ℤ)) =
      (List.range' 0 ps.length).map fun j => ((Nat.nth Nat.Prime j : ℕ) : ℤ) := by
    rw [hlength, ← List.range_eq_range', hnth, List.map_map]
    rfl
  -- every number below the length is the number of a prime inside the table
  have hinside : ∀ j < ps.length, Nat.nth Nat.Prime j < σ.table.limit := by
    intro j hj
    rw [hlength] at hj
    exact (Nat.nth_lt_of_lt_count hj).trans_le hm
  refine ⟨ps, ?_, fun r => ?_, ?_, ?_, ?_, ?_⟩
  · rw [hps]
    exact List.pairwise_lt_range.filter _
  · rw [hps]
    simp [and_comm]
  · rw [hps]
    exact (returns_primesBelow hm).exists_run_eq
  · have hzero : (0 + 1).primeCounting' = 0 := by decide
    have hin : ∀ j < ps.length, Nat.nth Nat.Prime (0 + j) < σ.table.limit := by
      intro j hj
      rw [Nat.zero_add]
      exact hinside j hj
    rw [hcast]
    exact (returns_nextPrimes hzero hin).exists_run_eq
  · rw [hcast, ← List.range_eq_range']
    exact (returns_mapM fun j hj d =>
      returns_nthPrime (hinside j (List.mem_range.mp hj))).exists_run_eq
  · have hcount : m.primeCounting' = 0 + ps.length := by rw [hlength, Nat.zero_add]
    rw [hcast]
    exact (returns_previousPrimes hcount hm).exists_run_eq

/-- The primes below twelve, up to the very limit of the table. -/
theorem enumerations_agree_twelve :
    12 ≤ (PrimeTable.fresh 12 (by decide)).limit ∧ ∃ p₁ p₂ p₃,
      (primesBelow 12).run ⟨{}, PrimeTable.fresh 12 (by decide), none⟩ ⟨Draws.ofScript [], {}⟩ =
        (.ok [2, 3, 5, 7, 11], p₁) ∧
      (nextPrimes 0 5).run ⟨{}, PrimeTable.fresh 12 (by decide), none⟩ ⟨Draws.ofScript [], {}⟩ =
        (.ok [2, 3, 5, 7, 11], p₂) ∧
      (previousPrimes 12 5).run ⟨{}, PrimeTable.fresh 12 (by decide), none⟩
        ⟨Draws.ofScript [], {}⟩ =
        (.ok [11, 7, 5, 3, 2], p₃) := by
  obtain ⟨ps, hsorted, hmem, ⟨p₁, h₁⟩, ⟨p₂, h₂⟩, -, ⟨p₃, h₃⟩⟩ :=
    enumerations_agree (σ := ⟨{}, PrimeTable.fresh 12 (by decide), none⟩) (m := 12) le_rfl
      ⟨Draws.ofScript [], {}⟩
  have hps : ps = [2, 3, 5, 7, 11] := by
    refine hsorted.eq_of_mem_iff (by decide) fun r => ?_
    rw [hmem]
    constructor
    · rintro ⟨hr, hlt⟩
      interval_cases r <;> revert hr <;> decide
    · intro hr
      fin_cases hr <;> decide
  subst hps
  exact ⟨le_rfl, p₁, p₂, p₃, h₁, h₂, h₃⟩

end Search

end ExactNumerics
