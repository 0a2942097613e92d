import ExactNumerics.Prime.Primality
import ExactNumerics.Proofs.Prime.Sieve
import ExactNumerics.Proofs.Prime.StrongTrial
import ExactNumerics.Proofs.Search.Contract

/-!
# What an answer about primality is worth

A number with an entry in the table is answered by the sieve, which is exact, and the gap between
a table of two or three entries and the first number that can be submitted to trials is answered
by comparison. Beyond that, trials decide: they never fail, since every number from four on has a
witness to draw, and they never reject a prime. So the answer `false` is always right, and a wrong
`true` is possible for a composite past the table only.

The number of trials depends on the tolerance of the settings, and not every tolerance has one;
that it has is a hypothesis on the settings, `Settings.HasTrialCount`.

## Main definitions

* `Settings.HasTrialCount` — the tolerance has a number of trials
* `PrimalityAnswer` — what is known of an answer
* `Search.Surroundings.Answers` — numbers up to a bound get an answer

## Main results

* `Search.returns_repeatedTrials` — the verdict of a series of trials
* `Search.returns_isPrime_of_answers`, `Search.returns_isPrime` — the answer for a natural number
* `Search.isPrimeInteger_run` — the answer for an integer, its negative and other tables
-/

namespace ExactNumerics

/-- The number of trials for the tolerance of the settings is defined. -/
def Settings.HasTrialCount (s : Settings) : Prop := ∃ k, checkedTrialCount s.tolerance = .ok k

/-- The default tolerance asks for twenty-four trials. -/
theorem Settings.hasTrialCount_default : Settings.HasTrialCount {} := ⟨24, by decide +kernel⟩

/-- What is known of the answer `b` to whether `n` is prime, from a table with the given limit. -/
structure PrimalityAnswer (limit n : ℕ) (b : Bool) : Prop where
  /-- A prime is not rejected. -/
  of_prime : n.Prime → b = true
  /-- Inside the table, and below the first number that is submitted to trials, the answer is
  exact. -/
  exact : n < limit ∨ n < 4 → (b = true ↔ n.Prime)

/-- A draw lies in its range. -/
theorem Draws.uniform_mem (d : Draws) (lo : ℤ) {width : ℕ} (hw : 0 < width) :
    lo ≤ (d.uniform lo width).1 ∧ (d.uniform lo width).1 < lo + width := by
  have h0 := Int.emod_nonneg (d.stream d.taken) (by omega : (width : ℤ) ≠ 0)
  have h1 := Int.emod_lt_of_pos (d.stream d.taken) (by omega : (0 : ℤ) < width)
  exact ⟨by simpa [uniform] using h0, by simpa [uniform] using h1⟩

namespace Search

variable {σ : Surroundings} {d : Draws} {n : ℕ}

/-! ### Trials -/

/-- A trial with a drawn witness is a trial with some witness in `[2, n)`. -/
theorem returns_strongTrial (hn : 4 ≤ n) :
    Returns (Search.strongTrial n) σ d fun v =>
      ∃ a, 2 ≤ a ∧ a < n ∧ v = ExactNumerics.strongTrial n a := by
  have hlt : ¬ n < 4 := by omega
  simp only [Search.strongTrial, hlt, if_false]
  refine Meets.bind (Q := fun (x : ℤ) _ => 2 ≤ x ∧ x < n) ?_ ?_
  · refine .draw ?_
    obtain ⟨h0, h1⟩ := d.uniform_mem 2 (by omega : 0 < n - 2)
    exact ⟨h0, by omega⟩
  · rintro x d' - ⟨h2, hx⟩
    exact .pure ⟨x.toNat, by omega, by omega, rfl⟩

/-- **The verdict of a series of trials.** Either none spoke against a prime, or the verdict is that
of the first one that did. -/
theorem returns_repeatedTrials (hn : 4 ≤ n) (k : ℕ) :
    Returns (repeatedTrials n k) σ d fun v =>
      v = .veryProbablyPrime ∨
        ∃ a, 2 ≤ a ∧ a < n ∧ v = ExactNumerics.strongTrial n a ∧ v ≠ .probablyPrime := by
  induction k generalizing d with
  | zero => exact .pure (.inl rfl)
  | succ k ih =>
    refine (returns_strongTrial hn).bind ?_
    rintro v d' - ⟨a, h2, han, rfl⟩
    refine .ite (fun _ => ih) fun hne => ?_
    exact .pure (.inr ⟨a, h2, han, rfl, hne⟩)

theorem returns_trialCount {k : ℕ} (hk : checkedTrialCount σ.settings.tolerance = .ok k) :
    Returns trialCount σ d fun i => i = k := by
  refine Meets.bind (Q := fun s _ => s = σ.settings) (.settings rfl) ?_
  rintro s d' - rfl
  rw [hk]
  exact .pure rfl

/-- Trials never reject a prime. -/
theorem returns_passesTrials (hσ : σ.settings.HasTrialCount) (hn : 4 ≤ n) :
    Returns (passesTrials n) σ d fun b => n.Prime → b = true := by
  obtain ⟨k, hk⟩ := hσ
  refine (returns_trialCount hk).bind ?_
  rintro k d' - rfl
  refine (returns_repeatedTrials hn k).bind ?_
  rintro v d'' - hv
  refine .pure fun hprime => decide_eq_true ?_
  rcases hv with rfl | ⟨a, h2, han, rfl, hne⟩
  · rfl
  · exact absurd (strongTrial_of_prime hprime (by omega) (by omega) han) hne

/-! ### Primality -/

/-- Every number up to `r` gets an answer: there is a number of trials, or an entry in the table. -/
def Surroundings.Answers (σ : Surroundings) (r : ℕ) : Prop :=
  σ.settings.HasTrialCount ∨ r < σ.table.limit

theorem Surroundings.Answers.mono {r s : ℕ} (h : σ.Answers s) (hle : r ≤ s) : σ.Answers r :=
  h.imp_right (Nat.lt_of_le_of_lt hle)

/-- **The answer for a natural number.** Inside the table no trial is made, so it does not matter
whether the tolerance has a number of trials. -/
theorem returns_isPrime_of_answers (hσ : σ.Answers n) :
    Returns (isPrime n) σ d (PrimalityAnswer σ.table.limit n) := by
  refine Meets.bind (Q := fun t _ => t = σ.table) (.table rfl) ?_
  rintro t d' - rfl
  refine .ite (fun hcov => .lookup ?_) fun hcov => .ite (fun hlt => .pure ?_) fun hge => ?_
  · have hexact := σ.table.isPrime_eq (of_decide_eq_true hcov)
    exact ⟨fun h => by simpa [hexact] using h, fun _ => by simp [hexact]⟩
  · have hexact : (decide (2 ≤ n) = true) ↔ n.Prime := by
      interval_cases n <;> decide
    exact ⟨hexact.mpr, fun _ => hexact⟩
  · have hout : ¬ n < σ.table.limit := fun hc => hcov (decide_eq_true hc)
    have htrials : σ.settings.HasTrialCount := hσ.resolve_right hout
    exact (returns_passesTrials htrials (by omega)).meets fun b _ hb => ⟨hb, by omega⟩

/-- The answer for a natural number of any size. -/
theorem returns_isPrime (hσ : σ.settings.HasTrialCount) (n : ℕ) :
    Returns (isPrime n) σ d (PrimalityAnswer σ.table.limit n) :=
  returns_isPrime_of_answers (.inl hσ)

/-- **Primality of an integer.** There is an answer, and the same one for the negative on the same
draws. It is exact for absolute values inside the table or below four, and right for every prime,
so `false` is always right. With another table, whatever is drawn, only a composite can be answered
otherwise. -/
theorem isPrimeInteger_run (n : ℤ) (σ : Surroundings) (p : Progress)
    (hσ : σ.settings.HasTrialCount) :
    ∃ b p', (isPrimeInteger n).run σ p = (.ok b, p') ∧
      (isPrimeInteger (-n)).run σ p = (.ok b, p') ∧
      (n.natAbs < σ.table.limit ∨ n.natAbs < 4 → (b = true ↔ n.natAbs.Prime)) ∧
      (n.natAbs.Prime → b = true) ∧
      (b = false → ¬ n.natAbs.Prime) ∧
      ∀ (t : PrimeTable) (q q' : Progress) (c : Bool),
        (isPrimeInteger n).run ⟨σ.settings, t, σ.digits⟩ q = (.ok c, q') → c ≠ b →
          4 ≤ n.natAbs ∧ ¬ n.natAbs.Prime := by
  obtain ⟨b, p', hrun, hb⟩ := (returns_isPrime (d := p.draws) hσ n.natAbs).exists_run
  refine ⟨b, p', hrun, ?_, hb.exact, hb.of_prime, ?_, ?_⟩
  · rw [isPrimeInteger, Int.natAbs_neg]
    exact hrun
  · rintro rfl hprime
    exact Bool.false_ne_true (hb.of_prime hprime)
  · intro t q q' c hrun' hne
    have hc : PrimalityAnswer t.limit n.natAbs c :=
      Meets.of_ok (returns_isPrime (σ := ⟨σ.settings, t, σ.digits⟩) hσ n.natAbs) hrun'
    have hcomposite : ¬ n.natAbs.Prime := fun hprime =>
      hne ((hc.of_prime hprime).trans (hb.of_prime hprime).symm)
    refine ⟨?_, hcomposite⟩
    by_contra hlt
    have hsmall : c = true ↔ b = true :=
      (hc.exact (.inr (by omega))).trans (hb.exact (.inr (by omega))).symm
    exact hne (Bool.eq_iff_iff.mpr hsmall)

/-- The default settings allow an answer, and minus seven gets the right one past a table that ends
before two. -/
theorem isPrimeInteger_run_neg_seven :
    Settings.HasTrialCount {} ∧ ∃ p', (isPrimeInteger (-7)).run
      ⟨{}, PrimeTable.fresh 2 le_rfl, none⟩ ⟨Draws.ofScript [3], {}⟩ = (.ok true, p') := by
  obtain ⟨b, p', hrun, -, -, hprime, -⟩ :=
    isPrimeInteger_run (-7) ⟨{}, PrimeTable.fresh 2 le_rfl, none⟩ ⟨Draws.ofScript [3], {}⟩
      Settings.hasTrialCount_default
  have hb : b = true := hprime (by decide)
  exact ⟨Settings.hasTrialCount_default, p', hb ▸ hrun⟩

end Search

end ExactNumerics
