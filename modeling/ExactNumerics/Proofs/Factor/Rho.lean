import ExactNumerics.Factor.Rho
import ExactNumerics.Proofs.Search.Contract

/-!
# Splitting by Pollard's rho

What the rounds return is a greatest common divisor that passed the comparisons with one and `n`,
so it is a proper divisor, whatever the seed. An attempt takes one draw, and when all attempts have
failed, the draws at the end of the stream that was taken are the seeds that failed. A failed
attempt is noted, which ends the search if an integer in the note has too many digits.

## Main definitions

* `ProperDivisor n g` — the number `g` divides `n` and is neither one nor `n`
* `FailedSeeds n attempts d d'` — the last draws before `d'` are seeds that do not split `n`
* `Search.NotesFit` — the notes on attempts can be made

## Main results

* `rho_proper` — what an attempt finds is a proper divisor
* `Search.meets_split` — a proper divisor, or as many failed seeds as there are attempts, or a note
  that cannot be made
-/

namespace ExactNumerics

/-- The number `g` divides `n` and is neither one nor `n`. -/
structure ProperDivisor (n g : ℕ) : Prop where
  /-- It is not one. -/
  one_lt : 1 < g
  /-- It is not `n`. -/
  lt : g < n
  /-- It divides. -/
  dvd : g ∣ n

/-- Between the sources `d` and `d'`, the last draws were `attempts` seeds, and none of them
splits `n`. -/
def FailedSeeds (n attempts : ℕ) (d d' : Draws) : Prop :=
  ∃ start, d.taken ≤ start ∧ d'.taken = start + attempts ∧
    ∀ i < attempts, rho n (d.stream (start + i) % n).toNat = none

/-- It does not matter what was drawn before. -/
theorem FailedSeeds.of_leadsTo {n attempts : ℕ} {d₀ d d' : Draws} (h₀ : d₀.LeadsTo d)
    (h : FailedSeeds n attempts d d') : FailedSeeds n attempts d₀ d' := by
  obtain ⟨start, hstart, htaken, hfailed⟩ := h
  rw [h₀.stream] at hfailed
  exact ⟨start, Nat.le_trans h₀.taken hstart, htaken, hfailed⟩

/-! ### One attempt -/

theorem rhoSearch_proper {n rounds x y g : ℕ} (h : rhoSearch n rounds x y = some g) :
    ProperDivisor n g := by
  induction rounds generalizing x y with
  | zero => simp [rhoSearch] at h
  | succ rounds ih =>
    simp only [rhoSearch] at h
    split at h
    · rename_i hproper
      simp only [Bool.and_eq_true, decide_eq_true_eq] at hproper
      obtain rfl := Option.some.inj h
      exact ⟨hproper.1, hproper.2, Int.natCast_dvd_natCast.mp (Int.gcd_dvd_right _ _)⟩
    · split at h
      · simp at h
      · exact ih h

/-- What an attempt finds is a proper divisor. -/
theorem rho_proper {n seed g : ℕ} (h : rho n seed = some g) : ProperDivisor n g :=
  rhoSearch_proper h

namespace Search

variable {σ : Surroundings} {d : Draws} {n : ℕ}

/-- An attempt takes one draw for its seed, and does not fail. -/
theorem meets_rho {E : Failure → Draws → Prop} (hn : 0 < n) :
    Meets (Search.rho n) σ d
      (fun r d' => r = ExactNumerics.rho n (d.stream d.taken % n).toNat ∧ d'.taken = d.taken + 1)
      E := by
  have hne : ¬ n = 0 := by omega
  simp only [Search.rho, if_neg hne]
  refine Meets.bind (Q := fun (x : ℤ) d' => x = d.stream d.taken % n ∧ d'.taken = d.taken + 1)
    (.draw ⟨Int.zero_add _, rfl⟩) ?_
  rintro x d' - ⟨rfl, htaken⟩
  exact .pure ⟨rfl, htaken⟩

/-! ### Repeated attempts -/

/-- The integers that are noted about attempts at `n` have few enough digits. -/
def NotesFit (σ : Surroundings) (n : ℕ) : Prop :=
  σ.digits.admits n ∧ σ.digits.admits σ.settings.splitAttempts

/-- The notes on a smaller number fit as well. -/
theorem NotesFit.mono {m : ℕ} (h : NotesFit σ n) (hle : m ≤ n) : NotesFit σ m :=
  ⟨DigitLimit.admits_of_natAbs_le h.1 hle, h.2⟩

/-- A note on attempts at `n`: the number itself, and numbers up to that of all attempts. -/
theorem meets_note_attempts {counts : List ℤ}
    (h : ∀ i ∈ counts, i.natAbs ≤ σ.settings.splitAttempts) :
    Meets (note (n :: counts)) σ d (fun _ d' => d' = d)
      fun f _ => f = .unworded .value ∧ ¬ NotesFit σ n := by
  refine (Meets.note fun hfit => ?_).weaken (fun _ _ _ h => h.2) fun _ _ _ h => ⟨h.1, h.2.1⟩
  rw [List.forall_mem_cons]
  exact ⟨hfit.1, fun i hi => DigitLimit.admits_of_natAbs_le hfit.2 (h i hi)⟩

/-- The attempts end with a proper divisor, or have all failed. -/
theorem meets_splitWithin (hn : 0 < n) {attempts : ℕ} (hle : attempts ≤ σ.settings.splitAttempts) :
    Meets (splitWithin n σ.settings.splitAttempts attempts) σ d
      (fun r d' => (∀ g, r = some g → ProperDivisor n g) ∧
        (r = none → d'.taken = d.taken + attempts ∧
          ∀ i < attempts, ExactNumerics.rho n (d.stream (d.taken + i) % n).toNat = none))
      fun f _ => f = .unworded .value ∧ ¬ NotesFit σ n := by
  induction attempts generalizing d with
  | zero => exact .pure ⟨by simp, fun _ => ⟨rfl, by simp⟩⟩
  | succ attempts ih =>
    refine (meets_rho hn).bind ?_
    rintro r d' hlead ⟨hr, htaken⟩
    cases r with
    | some g =>
      refine .pure ⟨?_, by simp⟩
      rintro g' ⟨rfl⟩
      exact rho_proper hr.symm
    | none =>
      refine (meets_note_attempts (by simp)).bind ?_
      rintro - d' - rfl
      refine (ih (by omega)).weaken (fun r d'' _ h => ⟨h.1, fun hnone => ?_⟩) fun _ _ _ h => h
      obtain ⟨htaken', hfailed⟩ := h.2 hnone
      refine ⟨by omega, fun i hi => ?_⟩
      -- the first seed is the one of this attempt
      cases i with
      | zero => exact hr.symm
      | succ i =>
        have := hfailed i (by omega)
        rwa [hlead.stream, htaken, Nat.add_right_comm, Nat.add_assoc] at this

/-- **Splitting.** It ends with a proper divisor, or as many seeds as there are attempts have
failed, one after the other, or a failed attempt could not be noted. -/
theorem meets_split (hn : 0 < n) :
    Meets (split n) σ d (fun g _ => ProperDivisor n g) fun f d' =>
      f = .unsplit n σ.settings.splitAttempts ∧ FailedSeeds n σ.settings.splitAttempts d d' ∨
        f = .unworded .value ∧ ¬ NotesFit σ n := by
  refine Meets.bind (Q := fun s d' => s = σ.settings ∧ d' = d) (.settings ⟨rfl, rfl⟩) ?_
  rintro s d' - ⟨rfl, rfl⟩
  refine Meets.bind ((meets_splitWithin hn (Nat.le_refl _)).weaken (fun _ _ _ h => h)
    fun _ _ _ => .inr) ?_
  rintro r d'' - ⟨hsome, hnone⟩
  cases r with
  | some g => exact .pure (hsome g rfl)
  | none =>
    obtain ⟨htaken, hfailed⟩ := hnone rfl
    refine ((meets_note_attempts (by simp)).weaken (fun _ _ _ h => h) fun _ _ _ => .inr).bind ?_
    rintro - d₁ - rfl
    exact .throw (.inl ⟨rfl, _, Nat.le_refl _, htaken, hfailed⟩)

end Search

end ExactNumerics
