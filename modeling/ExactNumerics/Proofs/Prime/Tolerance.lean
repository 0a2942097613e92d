import ExactNumerics.Proofs.Prime.Neighbours

/-!
# Searches without a number of trials

Not every tolerance has a number of trials. With one that has none, a number past the table gets no
answer, but a search that does not ask about such a number may still return. What such a search
returns is nothing new: it never made a trial, so the tolerance made no difference, and the same
run returns the same with the default tolerance. What is proved of answers for a tolerance with a
number of trials therefore holds of all of them.

`Search.Carries` is this transfer. As contracts ask of every run that it moves on in its stream,
so does `Search.Carries`; it is then closed under sequencing, and a contract transfers as a whole.

## Main definitions

* `Search.Surroundings.withTrials` — the same surroundings with the default tolerance
* `Search.Carries` — what is returned in the given surroundings is also returned in those

## Main results

* `Search.Carries.bind` — consecutive searches
* `Search.Carries.meets` — from a contract with the default tolerance
* `Search.carries_isPrime`, `Search.carries_nextPrime` — the tolerances without a number of trials
-/

namespace ExactNumerics

namespace Search

/-- The same surroundings with the default tolerance. -/
def Surroundings.withTrials (σ : Surroundings) : Surroundings where
  settings :=
    { σ.settings with
      tolerance := (default : Settings).tolerance
      tolerance_admitted := (default : Settings).tolerance_admitted }
  table := σ.table
  digits := σ.digits

theorem Surroundings.hasTrialCount_withTrials (σ : Surroundings) :
    σ.withTrials.settings.HasTrialCount := Settings.hasTrialCount_default

variable {α β : Type} {σ : Surroundings}

/-- The search moves on in its stream, and what it returns in the given surroundings, it returns
with the default tolerance as well. -/
structure Carries (σ : Surroundings) (x : Search α) : Prop where
  /-- It moves on in its stream. -/
  leadsTo : ∀ p : Progress, p.draws.LeadsTo (x.run σ p).2.draws
  /-- What it returns, it returns with the default tolerance. -/
  run_eq : ∀ {p p' : Progress} {a : α},
    x.run σ p = (.ok a, p') → x.run σ.withTrials p = (.ok a, p')

namespace Carries

/-- A search with the same run in all surroundings. -/
theorem of_run_eq {x : Search α}
    (hlead : ∀ p : Progress, p.draws.LeadsTo (x.run σ p).2.draws)
    (heq : ∀ p, x.run σ.withTrials p = x.run σ p) : Carries σ x where
  leadsTo := hlead
  run_eq hrun := (heq _).trans hrun

/-- A search that fails without a draw. -/
theorem of_fails {x : Search α}
    (h : ∀ p : Progress, ∃ f seen, x.run σ p = (.error f, ⟨p.draws, seen⟩)) : Carries σ x where
  leadsTo p := by
    obtain ⟨f, seen, hfail⟩ := h p
    rw [hfail]
    exact .refl p.draws
  run_eq {p p' a} hrun := by
    obtain ⟨f, seen, hfail⟩ := h p
    rw [hfail] at hrun
    simp at hrun

theorem pure (a : α) : Carries σ (Pure.pure a) := of_run_eq (fun p => .refl p.draws) fun _ => rfl

theorem throw (f : Failure) : Carries σ (MonadExcept.throw f : Search α) :=
  of_run_eq (fun p => .refl p.draws) fun _ => rfl

theorem draw (lo : ℤ) (width : ℕ) : Carries σ (Search.draw lo width) :=
  of_run_eq (fun p => .uniform p.draws lo width) fun _ => rfl

theorem lookup (n : ℕ) : Carries σ (Search.lookup n) :=
  of_run_eq (fun p => .refl p.draws) fun _ => rfl

theorem note (is : List ℤ) : Carries σ (Search.note is) :=
  of_run_eq (fun p => .refl p.draws) fun _ => rfl

/-- **Consecutive searches.** -/
theorem bind {x : Search α} {f : α → Search β} (hx : Carries σ x) (hf : ∀ a, Carries σ (f a)) :
    Carries σ (x >>= f) where
  leadsTo p := by
    have hlead := hx.leadsTo p
    rw [run_bind]
    rcases hfirst : x.run σ p with ⟨e | a, q⟩ <;> rw [hfirst] at hlead
    · exact hlead
    · exact hlead.trans ((hf a).leadsTo q)
  run_eq {p p' b} hrun := by
    rw [run_bind] at hrun
    rcases hfirst : x.run σ p with ⟨e | a, q⟩ <;> rw [hfirst] at hrun
    · simp at hrun
    · rw [run_bind_ok (hx.run_eq hfirst)]
      exact (hf a).run_eq hrun

theorem ite {c : Prop} [Decidable c] {x y : Search α} (hx : Carries σ x) (hy : Carries σ y) :
    Carries σ (if c then x else y) := by
  split
  · exact hx
  · exact hy

/-- Reading the settings for something else than the tolerance. -/
theorem settings {f : Settings → Search α} (hf : Carries σ (f σ.settings))
    (heq : f σ.withTrials.settings = f σ.settings) : Carries σ (Search.settings >>= f) where
  leadsTo p := hf.leadsTo { p with footprint.settings := true }
  run_eq {p p' a} hrun := by
    have h : (f σ.withTrials.settings).run σ.withTrials { p with footprint.settings := true } =
        (.ok a, p') := by
      rw [heq]
      exact hf.run_eq hrun
    exact h

/-- Reading the table. -/
theorem table {f : PrimeTable → Search α} (hf : Carries σ (f σ.table)) :
    Carries σ (Search.table >>= f) where
  leadsTo p := hf.leadsTo { p with footprint.table := true }
  run_eq hrun := hf.run_eq hrun

/-- **A contract transfers** to what a search returns. -/
theorem meets {x : Search α} (hx : Carries σ x) {d : Draws} {Q : α → Draws → Prop}
    {E : Failure → Draws → Prop} (h : Meets x σ.withTrials d Q E) :
    Meets x σ d Q fun _ _ => True := by
  intro seen
  refine ⟨hx.leadsTo ⟨d, seen⟩, ?_⟩
  rcases hrun : x.run σ ⟨d, seen⟩ with ⟨e | a, p'⟩
  · trivial
  · exact Meets.of_ok (p := ⟨d, seen⟩) h (hx.run_eq hrun)

end Carries

/-! ### The tolerances without a number of trials -/

/-- Without a number of trials no series of trials returns. -/
theorem carries_passesTrials (hσ : ¬ σ.settings.HasTrialCount) (n : ℕ) :
    Carries σ (passesTrials n) := by
  refine .of_fails fun p => ?_
  cases hcount : checkedTrialCount σ.settings.tolerance with
  | ok k => exact absurd ⟨k, hcount⟩ hσ
  | error f =>
    have hrun : trialCount.run σ p = (.error f, { p with footprint.settings := true }) := by
      rw [trialCount, run_bind_ok (a := σ.settings) rfl, hcount]
      rfl
    exact ⟨f, { p.footprint with settings := true }, by rw [passesTrials, run_bind, hrun]⟩

theorem carries_isPrime (hσ : ¬ σ.settings.HasTrialCount) (n : ℕ) : Carries σ (isPrime n) :=
  .table <| .ite (.lookup n) <| .ite (.pure _) (carries_passesTrials hσ n)

theorem carries_scanUp (hσ : ¬ σ.settings.HasTrialCount) (more candidate : ℕ) :
    Carries σ (scanUp more candidate) := by
  induction more generalizing candidate with
  | zero => exact .throw _
  | succ more ih =>
    exact (carries_isPrime hσ candidate).bind fun _ => .ite (.pure _) (ih (candidate + 2))

/-- The number found above a natural number. -/
theorem carries_nextPrime (hσ : ¬ σ.settings.HasTrialCount) (n : ℕ) : Carries σ (nextPrime n) := by
  have hnn : ¬ (n : ℤ) < 0 := by omega
  rw [nextPrime, if_neg hnn, Int.natAbs_natCast]
  exact .ite (.pure _) <| .ite (.pure _) <| (carries_scanUp hσ n _).bind fun _ => .pure _

end Search

end ExactNumerics
