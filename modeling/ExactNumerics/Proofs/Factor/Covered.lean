import ExactNumerics.Proofs.Factor.Agreement
import ExactNumerics.Proofs.Prime.Tolerance

/-!
# Factorizations of covered numbers

A number that the table covers has its prime factorization, or none is returned. For a tolerance
with a number of trials that is part of the contract of a factorization. For the other tolerances it
transfers from the default one, since a factorization reads the tolerance for trials only.

So the contracts here make no assumption on the settings. They say nothing of failures, of which
there are more kinds here: besides a part that could not be split and a note that could not be made,
a number past the table that has no answer, as the prime after the largest divisor may be.

What is computed from a factorization can be called again and again, each time with other settings,
another table and other draws. So the last section speaks of answers that *some* call returns. For a
covered number, the prime factorization is one of them and the only one.

## Main definitions

* `Search.CoveredAnswer n x a` — some call of the search, with a table that covers `n`, returns `a`

## Main results

* `Search.carries_trialDivision`, `Search.carries_factorBySplitting` — the two ways to factor
* `Search.meets_factor_answer` — the contract for every setting
* `Search.meets_factor_of_covered` — the contract for covered numbers
* `Search.coveredAnswer_factor_iff` — its prime factorization is the only answer
* `Search.coveredAnswer_of_factor_iff` — the same for what is computed from it
-/

namespace ExactNumerics

namespace Search

variable {σ : Surroundings} {d : Draws} {n : ℕ}

/-! ### Trial division -/

theorem carries_divideFrom (hσ : ¬ σ.settings.HasTrialCount) (rounds p n : ℕ)
    (found : Factorization) : Carries σ (divideFrom rounds p n found) := by
  induction rounds generalizing p n found with
  | zero => exact .throw _
  | succ rounds ih =>
    rw [divideFrom_succ]
    refine .ite (.pure _) <| .bind (.ite (.pure _) (carries_isPrime hσ n)) fun last => ?_
    refine .ite (.pure _) <| (carries_nextPrime hσ p).bind fun q => ?_
    exact .ite (ih _ _ _) (ih _ _ _)

theorem carries_trialDivision (hσ : ¬ σ.settings.HasTrialCount) (n : ℕ) :
    Carries σ (trialDivision n) := carries_divideFrom hσ n 2 n []

/-! ### Splitting -/

theorem carries_rho (n : ℕ) : Carries σ (Search.rho n) :=
  .ite (.bind (.throw _) fun _ => .bind (.draw _ _) fun _ => .pure _)
    (.bind (.draw _ _) fun _ => .pure _)

theorem carries_splitWithin (n total attempts : ℕ) :
    Carries σ (splitWithin n total attempts) := by
  induction attempts with
  | zero => exact .pure _
  | succ attempts ih =>
    refine (carries_rho n).bind fun r => ?_
    cases r with
    | none => exact (Carries.note _).bind fun _ => ih
    | some g => exact .pure _

theorem carries_split (n : ℕ) : Carries σ (split n) := by
  refine .settings ((carries_splitWithin n _ _).bind fun r => ?_) rfl
  cases r with
  | none => exact (Carries.note _).bind fun _ => .throw _
  | some g => exact .pure _

theorem carries_reduce (hσ : ¬ σ.settings.HasTrialCount) (m scale : ℕ) :
    Carries σ (reduce m scale) := by
  refine .ite (.pure _) <| (carries_isPrime hσ m).bind fun _ => ?_
  refine .ite (.pure _) <| .ite (.pure _) <| .ite (.pure _) <| .ite (.pure _) ?_
  exact (carries_split m).bind fun _ => .pure _

theorem carries_workOff (hσ : ¬ σ.settings.HasTrialCount) (steps : ℕ) (stack : List Power)
    (found : Factorization) : Carries σ (workOff steps stack found) := by
  induction steps generalizing stack found with
  | zero =>
    cases stack with
    | nil => exact .pure _
    | cons top stack => exact .throw _
  | succ steps ih =>
    cases stack with
    | nil => exact .pure _
    | cons top stack =>
      rw [workOff]
      exact (carries_reduce hσ top.base top.exponent).bind fun _ => ih _ _

theorem carries_factorBySplitting (hσ : ¬ σ.settings.HasTrialCount) (n : ℕ) :
    Carries σ (factorBySplitting n) :=
  (Carries.note _).bind fun _ => (carries_workOff hσ _ _ _).bind fun _ => .pure _

/-! ### Factorizations -/

theorem carries_factor (hσ : ¬ σ.settings.HasTrialCount) (n : ℕ) : Carries σ (factor n) :=
  .settings (.ite (carries_trialDivision hσ n) (carries_factorBySplitting hσ n)) rfl

/-- **The contract for every setting.** Whatever the settings and the draws, what is returned is a
factorization, and its bases are prime if the table covers the number. -/
theorem meets_factor_answer (hn : 0 < n) :
    Meets (factor n) σ d (fun fs _ => FactorizationAnswer σ.table.limit n fs) fun _ _ => True := by
  by_cases hσ : σ.settings.HasTrialCount
  · exact (meets_factor hσ hn).weaken (fun _ _ _ hfs => hfs.2) fun _ _ _ _ => trivial
  · refine (carries_factor hσ n).meets (E := fun _ _ => True) ?_
    exact (meets_factor σ.hasTrialCount_withTrials hn).weaken (fun _ _ _ hfs => hfs.2)
      fun _ _ _ _ => trivial

/-- **The contract for covered numbers.** Whatever the settings and the draws, what is returned is
the prime factorization. -/
theorem meets_factor_of_covered (hn : 0 < n) (hlt : n < σ.table.limit) :
    Meets (factor n) σ d (fun fs _ => IsPrimeFactorization n fs) fun _ _ => True :=
  (meets_factor_answer hn).weaken (fun _ _ _ hfs => hfs.isPrimeFactorization hlt)
    fun _ _ _ _ => trivial

/-! ### Answers of some call -/

section CoveredAnswer

variable {α β : Type}

/-- Some call of the search, with a table that covers `n`, returns `a`. The settings, the draws and
what was consulted before are left open. -/
def CoveredAnswer (n : ℕ) (x : Search α) (a : α) : Prop :=
  ∃ (σ : Surroundings) (p p' : Progress), n < σ.table.limit ∧ x.run σ p = (.ok a, p')

/-- What is computed from an answer without looking anything up. -/
theorem coveredAnswer_bind_pure_iff {x : Search α} {f : α → β} {b : β} :
    CoveredAnswer n (x >>= fun a => pure (f a)) b ↔ ∃ a, CoveredAnswer n x a ∧ f a = b := by
  constructor
  · rintro ⟨σ, p, p', hlt, hrun⟩
    rw [run_bind] at hrun
    rcases hx : x.run σ p with ⟨e | a, q⟩ <;> rw [hx] at hrun
    · simp at hrun
    · exact ⟨a, ⟨σ, p, q, hlt, hx⟩, by simpa using congrArg Prod.fst hrun⟩
  · rintro ⟨a, ⟨σ, p, p', hlt, hrun⟩, rfl⟩
    exact ⟨σ, p, p', hlt, by rw [run_bind_ok hrun, run_pure]⟩

/-- **A covered number has an answer, which is its prime factorization.** -/
theorem exists_coveredAnswer_factor (hn : 0 < n) :
    ∃ fs, CoveredAnswer n (factor n) fs ∧ IsPrimeFactorization n fs := by
  -- trial division, chosen by the settings, always has an answer
  let σ : Surroundings :=
    ⟨{ trialDivisionLimit := n + 1 }, PrimeTable.fresh (n + 2) (by omega), none⟩
  obtain ⟨fs, p', hrun, hfs⟩ := (returns_factor (d := Draws.ofScript []) (σ := σ)
    Settings.hasTrialCount_default hn (Nat.lt_succ_self n)).exists_run
      (p := ⟨Draws.ofScript [], {}⟩)
  have hlt : n < σ.table.limit := by simp [σ, PrimeTable.fresh]
  exact ⟨fs, ⟨σ, _, p', hlt, hrun⟩, hfs.isPrimeFactorization hlt⟩

theorem coveredAnswer_factor_iff (hn : 0 < n) {fs : Factorization} :
    CoveredAnswer n (factor n) fs ↔ IsPrimeFactorization n fs := by
  constructor
  · rintro ⟨σ, p, p', hlt, hrun⟩
    exact Meets.of_ok (meets_factor_of_covered hn hlt) hrun
  · intro hfs
    obtain ⟨gs, hgs, hprime⟩ := exists_coveredAnswer_factor hn
    rwa [hfs.unique hprime]

/-- **What is computed from the factorization of a covered number.** If the prime factorization
gives `a`, then `a` is an answer and the only one. -/
theorem coveredAnswer_of_factor_iff (hn : 0 < n) {f : Factorization → α} {a b : α}
    (hf : ∀ fs, IsPrimeFactorization n fs → f fs = a) :
    CoveredAnswer n (factor n >>= fun fs => pure (f fs)) b ↔ b = a := by
  rw [coveredAnswer_bind_pure_iff]
  constructor
  · rintro ⟨fs, hfs, rfl⟩
    exact hf fs ((coveredAnswer_factor_iff hn).mp hfs)
  · rintro rfl
    obtain ⟨fs, hfs, hprime⟩ := exists_coveredAnswer_factor hn
    exact ⟨fs, hfs, hf fs hprime⟩

end CoveredAnswer

end Search

end ExactNumerics
