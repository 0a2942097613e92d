import ExactNumerics.Proofs.Factor.Splitting

/-!
# What a factorization is worth

Trial division and splitting have nothing in common but the primality test, and what they return
has the same contract: a factorization of the number, with prime bases if the table covers the
number. There is only one such list, so inside the table they agree, and neither the limit up to
which trial division is used nor the draws can show in an answer.

Beyond the table a base may be composite, and that is the only harm. Trial division always ends
with an answer, and splitting ends with an answer or gives up on a part that it could not split. It
also notes what it does, so it gives up on integers with too many digits for a note, if their digits
are limited.

## Main results

* `Search.meets_factor` — the contract of a factorization
* `Search.factorizations_agree` — inside the table every answer is the prime factorization
* `Search.factor_run` — with any table, a factorization, a part that could not be split, or an
  integer that could not be noted
-/

namespace ExactNumerics

namespace Search

variable {σ : Surroundings} {d : Draws} {n : ℕ}

/-- **The contract of a factorization.** Only splitting can give up, and it does so at once for a
number with too many digits. -/
theorem meets_factor (hσ : σ.settings.HasTrialCount) (hn : 0 < n) :
    Meets (factor n) σ d
      (fun fs _ => (σ.settings.trialDivisionLimit ≤ n → σ.digits.admits n) ∧
        FactorizationAnswer σ.table.limit n fs)
      fun f d' => σ.settings.trialDivisionLimit ≤ n ∧ GivesUp σ n d f d' ∧
        (¬ σ.digits.admits n → f = .unworded .value ∧ d' = d) := by
  refine Meets.bind (Q := fun s d' => s = σ.settings ∧ d' = d) (.settings ⟨rfl, rfl⟩) ?_
  rintro s d' - ⟨rfl, rfl⟩
  refine .ite (fun hlt => ?_) fun hge => ?_
  · exact (returns_trialDivision hσ hn).meets fun _ _ h =>
      ⟨fun hle => absurd hlt (Nat.not_lt.mpr hle), h⟩
  · exact (meets_factorBySplitting hσ hn).weaken (fun _ _ _ ⟨hfits, h⟩ => ⟨fun _ => hfits, h⟩)
      fun _ _ _ h => ⟨Nat.le_of_not_lt hge, h⟩

/-- Below the limit of trial division there is always an answer. -/
theorem returns_factor (hσ : σ.settings.HasTrialCount) (hn : 0 < n)
    (hlt : n < σ.settings.trialDivisionLimit) :
    Returns (factor n) σ d (FactorizationAnswer σ.table.limit n) :=
  (meets_factor hσ hn).weaken (fun _ _ _ h => h.2) fun _ _ _ h => absurd h.1 (Nat.not_le.mpr hlt)

/-- **Inside the table every answer is the prime factorization.** There is exactly one, trial
division always returns it, and whatever the settings, the table and the draws, neither splitting
nor the choice between the two ever returns anything else. -/
theorem factorizations_agree (hn : 0 < n) :
    ∃ fs, IsPrimeFactorization n fs ∧ (∀ gs, IsPrimeFactorization n gs → gs = fs) ∧
      ∀ (σ : Surroundings) (p : Progress), n < σ.table.limit → σ.settings.HasTrialCount →
        (∃ p', (trialDivision n).run σ p = (.ok fs, p')) ∧
        (∀ gs p', (factorBySplitting n).run σ p = (.ok gs, p') → gs = fs) ∧
        ∀ gs p', (factor n).run σ p = (.ok gs, p') → gs = fs := by
  -- one run of trial division shows that there is a prime factorization
  let σ₀ : Surroundings := ⟨{}, PrimeTable.fresh (n + 2) (by omega), none⟩
  obtain ⟨fs, -, -, hfs⟩ := (returns_trialDivision (d := Draws.ofScript []) (σ := σ₀)
    Settings.hasTrialCount_default hn).exists_run (p := ⟨Draws.ofScript [], {}⟩)
  have hprime : IsPrimeFactorization n fs :=
    hfs.isPrimeFactorization (by simp [σ₀, PrimeTable.fresh])
  refine ⟨fs, hprime, fun gs hgs => hgs.unique hprime, fun σ p hlt hσ => ⟨?_, ?_, ?_⟩⟩
  · obtain ⟨gs, p', hrun, hgs⟩ := (returns_trialDivision (d := p.draws) hσ hn).exists_run
    exact ⟨p', (hgs.isPrimeFactorization hlt).unique hprime ▸ hrun⟩
  · intro gs p' hrun
    have hgs := (Meets.of_ok (meets_factorBySplitting hσ hn) hrun).2
    exact (hgs.isPrimeFactorization hlt).unique hprime
  · intro gs p' hrun
    have hgs := (Meets.of_ok (meets_factor hσ hn) hrun).2
    exact (hgs.isPrimeFactorization hlt).unique hprime

/-- The prime factorization of 360, as trial division finds it. -/
theorem factorizations_agree_three_hundred_sixty :
    0 < 360 ∧ ∃ p', (trialDivision 360).run ⟨{}, PrimeTable.fresh 361 (by decide), none⟩
      ⟨Draws.ofScript [], {}⟩ = (.ok [⟨2, 3⟩, ⟨3, 2⟩, ⟨5, 1⟩], p') := by
  obtain ⟨fs, -, hunique, hall⟩ := factorizations_agree (by decide : 0 < 360)
  have hprime : IsPrimeFactorization 360 [⟨2, 3⟩, ⟨3, 2⟩, ⟨5, 1⟩] :=
    ⟨⟨by decide, by decide, by decide, by decide⟩, by decide⟩
  obtain ⟨⟨p', hrun⟩, -⟩ := hall ⟨{}, PrimeTable.fresh 361 (by decide), none⟩
    ⟨Draws.ofScript [], {}⟩ (by decide) Settings.hasTrialCount_default
  exact ⟨by decide, p', hunique _ hprime ▸ hrun⟩

end Search

end ExactNumerics
