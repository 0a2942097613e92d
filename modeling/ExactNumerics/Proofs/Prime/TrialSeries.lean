import ExactNumerics.Catalogue.Primes
import ExactNumerics.Proofs.Prime.FoolCount
import ExactNumerics.Proofs.Prime.Primality
import ExactNumerics.Proofs.Value.Operand
import Mathlib.Data.Fintype.BigOperators

/-!
# Series of trials and the tolerance

A series of `k` trials draws one witness for each trial, up to the first trial that speaks against
a prime. So the verdict is a function of the `k` witnesses that the source delivers,
`seriesVerdict`, and a composite passes the series exactly when each of them fools a single trial.
With at most a quarter of the witnesses fooling a trial, at most one sequence in `4 ^ k` fools the
series.

## Main definitions

* `seriesVerdict n as` — the verdict of a series of trials with the witnesses `as`
* `Draws.Delivers d n a` — the next draws of `d` from `[2, n)` are the numbers `a`
* `witnessSequences n k`, `fooledSequences n k` — all sequences, and those that fool the series

## Main results

* `Search.repeatedTrials_run` — the series as a function of the delivered witnesses
* `Catalogue.verdictOf_run` — the same from a tolerance
* `fooledSequences_eq` — a sequence fools the series exactly when each witness fools a trial
* `Catalogue.card_fooledSequences_le` — how many sequences fool the series
-/

namespace ExactNumerics

/-! ### The verdict of a series -/

/-- The verdict of a series of trials of `n` with the given witnesses. -/
def seriesVerdict (n : ℕ) : List ℕ → Verdict
  | [] => .veryProbablyPrime
  | a :: as =>
    if strongTrial n a = .probablyPrime then seriesVerdict n as else strongTrial n a

theorem strongTrial_ne_veryProbablyPrime (n a : ℕ) : strongTrial n a ≠ .veryProbablyPrime := by
  unfold strongTrial
  dsimp only
  repeat' split
  all_goals simp

theorem seriesVerdict_eq_veryProbablyPrime_iff (n : ℕ) (as : List ℕ) :
    seriesVerdict n as = .veryProbablyPrime ↔ ∀ a ∈ as, strongTrial n a = .probablyPrime := by
  induction as with
  | nil => simp [seriesVerdict]
  | cons a as ih =>
    rw [seriesVerdict, List.forall_mem_cons, ← ih]
    split
    · rename_i h
      simp [h]
    · rename_i h
      simp [h, strongTrial_ne_veryProbablyPrime]

/-! ### The witnesses that a source delivers -/

/-- The next draws from `[2, n)` are the given witnesses. -/
def Draws.Delivers (d : Draws) (n : ℕ) {k : ℕ} (a : Fin k → ℕ) : Prop :=
  ∀ i : Fin k, 2 + d.stream (d.taken + i) % (n - 2 : ℕ) = a i

/-- All sequences of witnesses. -/
def witnessSequences (n k : ℕ) : Finset (Fin k → ℕ) := Fintype.piFinset fun _ => Finset.Ico 2 n

/-- The sequences of witnesses with which `n` passes a series of trials. -/
def fooledSequences (n k : ℕ) : Finset (Fin k → ℕ) :=
  (witnessSequences n k).filter fun a => seriesVerdict n (List.ofFn a) = .veryProbablyPrime

theorem mem_witnessSequences {n k : ℕ} {a : Fin k → ℕ} :
    a ∈ witnessSequences n k ↔ ∀ i, 2 ≤ a i ∧ a i < n := by
  simp [witnessSequences]

theorem card_witnessSequences (n k : ℕ) : (witnessSequences n k).card = (n - 2) ^ k := by
  rw [witnessSequences, Fintype.card_piFinset_const, Nat.card_Ico]

/-- Whatever a source holds, it delivers some sequence of witnesses. -/
theorem Draws.exists_delivers (d : Draws) {n : ℕ} (hn : 2 < n) (k : ℕ) :
    ∃ a ∈ witnessSequences n k, d.Delivers n a := by
  have hdraw : ∀ i : Fin k, 0 ≤ d.stream (d.taken + i) % (n - 2 : ℕ) ∧
      d.stream (d.taken + i) % (n - 2 : ℕ) < (n - 2 : ℕ) := fun i =>
    ⟨Int.emod_nonneg _ (by omega), Int.emod_lt_of_pos _ (by omega)⟩
  refine ⟨fun i => (2 + d.stream (d.taken + i) % (n - 2 : ℕ)).toNat,
    mem_witnessSequences.mpr fun i => ?_, fun i => ?_⟩
  · have := hdraw i
    omega
  · have := hdraw i
    dsimp only
    omega

/-- Every sequence of witnesses is delivered by some source. -/
theorem exists_delivers {n k : ℕ} {a : Fin k → ℕ} (ha : a ∈ witnessSequences n k) :
    ∃ d : Draws, d.Delivers n a := by
  refine ⟨{ stream := fun j => if h : j < k then a ⟨j, h⟩ - 2 else 0 }, fun i => ?_⟩
  obtain ⟨h2, hlt⟩ := mem_witnessSequences.mp ha i
  simp only [Nat.zero_add, i.isLt, dite_true, Fin.eta]
  rw [Int.emod_eq_of_lt (by omega) (by omega)]
  omega

/-! ### The series as a function of the witnesses -/

namespace Search

variable {σ : Surroundings} {n : ℕ}

theorem strongTrial_run (hn : 4 ≤ n) (p : Progress) :
    (Search.strongTrial n).run σ p =
      (.ok (ExactNumerics.strongTrial n (p.draws.uniform 2 (n - 2)).1.toNat),
        { p with draws := (p.draws.uniform 2 (n - 2)).2 }) := by
  have hlt : ¬ n < 4 := by omega
  simp only [Search.strongTrial, hlt, if_false]
  rfl

/-- **The series as a function of the delivered witnesses.** -/
theorem repeatedTrials_run (hn : 4 ≤ n) {k : ℕ} (a : Fin k → ℕ) {p : Progress}
    (h : p.draws.Delivers n a) :
    ∃ p', (repeatedTrials n k).run σ p = (.ok (seriesVerdict n (List.ofFn a)), p') := by
  induction k generalizing p with
  | zero => exact ⟨p, by simp [repeatedTrials, seriesVerdict]⟩
  | succ k ih =>
    have hfirst : (p.draws.uniform 2 (n - 2)).1.toNat = a 0 := by
      have h0 := h 0
      simp only [Fin.val_zero, Nat.add_zero] at h0
      simp only [Draws.uniform]
      omega
    have hrest : Draws.Delivers (p.draws.uniform 2 (n - 2)).2 n fun i => a i.succ := fun i => by
      have hi := h i.succ
      rw [Fin.val_succ, ← Nat.add_assoc, Nat.add_right_comm] at hi
      exact hi
    rw [repeatedTrials, run_bind_ok (strongTrial_run hn p), hfirst, List.ofFn_succ, seriesVerdict]
    split
    · exact ih (fun i => a i.succ) hrest
    · exact ⟨_, rfl⟩

end Search

namespace Catalogue

open Search

/-- The number of trials for a tolerance does not depend on the draws and makes none. -/
theorem trialsOrDefault_run {tolerance : Value} {σ : Surroundings} {p₀ p₁ : Progress} {k : ℕ}
    (hk : (trialsOrDefault tolerance).run σ p₀ = (.ok k, p₁)) (p : Progress) :
    ∃ p', (trialsOrDefault tolerance).run σ p = (.ok k, p') ∧ p'.draws = p.draws := by
  unfold trialsOrDefault at hk ⊢
  split at hk
  · have hsettings : ∀ q : Progress, Search.trialCount.run σ q =
        (checkedTrialCount σ.settings.tolerance,
          { q with footprint := { q.footprint with settings := true } }) := fun q => by
      have hread : Search.settings.run σ q =
        (.ok σ.settings, { q with footprint := { q.footprint with settings := true } }) := rfl
      rw [Search.trialCount, run_bind_ok hread]
      cases checkedTrialCount σ.settings.tolerance <;> rfl
    rw [hsettings] at hk ⊢
    exact ⟨{ p with footprint := { p.footprint with settings := true } },
      by rw [(Prod.mk.inj hk).1], rfl⟩
  · rw [run_liftM] at hk ⊢
    exact ⟨p, by rw [(Prod.mk.inj hk).1], rfl⟩

/-- **The verdict from a tolerance**, as a function of the delivered witnesses. -/
theorem verdictOf_run {n : ℕ} (hn : 4 ≤ n) {tolerance : Value} {σ : Surroundings}
    {p₀ p₁ : Progress} {k : ℕ} (hk : (trialsOrDefault tolerance).run σ p₀ = (.ok k, p₁))
    (a : Fin k → ℕ) {p : Progress} (h : p.draws.Delivers n a) :
    ∃ p', (verdictOf (.integer n) tolerance).run σ p =
      (.ok (seriesVerdict n (List.ofFn a)), p') := by
  obtain ⟨q, hq, hdraws⟩ := trialsOrDefault_run hk p
  rw [verdictOf, run_bind_ok hq]
  split
  · rename_i h0
    subst h0
    exact ⟨q, rfl⟩
  · rw [run_bind_ok (run_liftM _ _ _ |>.trans (by rw [Value.checkNatural_natCast]))]
    exact repeatedTrials_run hn a (hdraws ▸ h)

end Catalogue

/-! ### Sequences that fool the series -/

/-- **A sequence fools the series** exactly when each of its witnesses fools a trial. -/
theorem fooledSequences_eq (n k : ℕ) :
    fooledSequences n k = Fintype.piFinset fun _ => foolingWitnesses n := by
  ext a
  simp only [fooledSequences, witnessSequences, foolingWitnesses, Finset.mem_filter,
    Fintype.mem_piFinset, seriesVerdict_eq_veryProbablyPrime_iff, List.forall_mem_ofFn_iff]
  exact forall_and.symm

theorem four_pow_mul_card_fooledSequences_le {n : ℕ} (hn : 4 ≤ n) (hc : ¬ n.Prime) (k : ℕ) :
    4 ^ k * (fooledSequences n k).card ≤ (n - 2) ^ k := by
  rw [fooledSequences_eq, Fintype.card_piFinset_const, ← mul_pow]
  exact Nat.pow_le_pow_left (four_mul_card_fooling_le hn hc) k

namespace Catalogue

open Search

/-- **How many sequences fool the series.** With a tolerance for which there are `k` trials, the
sequences of `k` witnesses are the ones that a source can deliver, the verdict on a composite is
read off the delivered one, and at most one sequence in `4 ^ k` earns the verdict of a prime. A
single trial is fooled by at most a quarter of its witnesses. -/
theorem card_fooledSequences_le {n k : ℕ} {tolerance : Value} {σ : Surroundings}
    {p₀ p₁ : Progress} (hn : 4 ≤ n) (hc : ¬ n.Prime)
    (hk : (trialsOrDefault tolerance).run σ p₀ = (.ok k, p₁)) :
    (witnessSequences n k).card = (n - 2) ^ k ∧
      (∀ d : Draws, ∃ a ∈ witnessSequences n k, d.Delivers n a) ∧
      (∀ a ∈ witnessSequences n k, ∃ d : Draws, d.Delivers n a) ∧
      (∀ (a : Fin k → ℕ) (p : Progress), p.draws.Delivers n a →
        ∃ p', (verdictOf (.integer n) tolerance).run σ p =
          (.ok (seriesVerdict n (List.ofFn a)), p')) ∧
      4 ^ k * (fooledSequences n k).card ≤ (n - 2) ^ k ∧
      4 * (foolingWitnesses n).card ≤ n - 2 := by
  refine ⟨card_witnessSequences n k, fun d => d.exists_delivers (by omega) k,
    fun a ha => exists_delivers ha, fun a p h => verdictOf_run hn hk a h,
    four_pow_mul_card_fooledSequences_le hn hc k, four_mul_card_fooling_le hn hc⟩

/-- Two trials of nine, for the tolerance a quarter. -/
theorem sixteen_mul_card_fooledSequences_nine :
    ¬ Nat.Prime 9 ∧ trialsFor (.double ⟨0x3FD0000000000000⟩) = .ok 2 ∧
      16 * (fooledSequences 9 2).card ≤ 49 := by
  have hk : trialsFor (.double ⟨0x3FD0000000000000⟩) = .ok 2 := by decide +kernel
  have hrun : (trialsOrDefault (.double ⟨0x3FD0000000000000⟩)).run
      ⟨{}, PrimeTable.fresh 2 le_rfl, none⟩ ⟨Draws.ofScript [], {}⟩ =
        (.ok 2, ⟨Draws.ofScript [], {}⟩) := by
    rw [trialsOrDefault, run_liftM, hk]
    rintro ⟨⟩
  refine ⟨by decide, hk, ?_⟩
  exact (card_fooledSequences_le (by decide) (by decide) hrun).2.2.2.2.1

end Catalogue

end ExactNumerics
