import ExactNumerics.Settings.Environment
import Mathlib.Data.Nat.Notation

/-!
# Settings from the environment always exist

A number in a variable is raised to the lower bound of its field or, where it has to lie between
two bounds, ignored when it does not. So whatever the variables say, the numbers that they ask for
are within their bounds.

## Main definitions

* `Settings.Draft.WithinBounds` — the numbers of a draft are there and within their bounds

## Main results

* `Settings.Draft.WithinBounds.exists_check` — a draft within its bounds passes the check
* `Settings.exists_ofEnvironment` — the settings that the variables ask for
-/

namespace ExactNumerics

namespace Settings

/-- The numbers of a draft are there and within their bounds. -/
structure Draft.WithinBounds (d : Draft) : Prop where
  /-- The table holds `0` and `1`. -/
  smallPrimeLimit : (atLeast? 2 d.smallPrimeLimit).isSome
  /-- The tolerance lies strictly between zero and one. -/
  tolerance : (admitted? d.tolerance).isSome
  /-- The factorial of zero is tabulated. -/
  factorialTableSize : (atLeast? 1 d.factorialTableSize).isSome
  /-- The bound of accumulated factorials is a natural number. -/
  simpleFactorialCutoff : (atLeast? 0 d.simpleFactorialCutoff).isSome
  /-- The bound of trial division is a natural number. -/
  trialDivisionLimit : (atLeast? 0 d.trialDivisionLimit).isSome
  /-- Splitting is tried at least once. -/
  splitAttempts : (atLeast? 1 d.splitAttempts).isSome

/-- A draft within its bounds passes the check. -/
theorem Draft.WithinBounds.exists_check {d : Draft} (h : d.WithinBounds) :
    ∃ s, d.check = .ok s := by
  obtain ⟨limit, hlimit⟩ := Option.isSome_iff_exists.mp h.smallPrimeLimit
  obtain ⟨t, ht⟩ := Option.isSome_iff_exists.mp h.tolerance
  obtain ⟨size, hsize⟩ := Option.isSome_iff_exists.mp h.factorialTableSize
  obtain ⟨cutoff, hcutoff⟩ := Option.isSome_iff_exists.mp h.simpleFactorialCutoff
  obtain ⟨division, hdivision⟩ := Option.isSome_iff_exists.mp h.trialDivisionLimit
  obtain ⟨attempts, hattempts⟩ := Option.isSome_iff_exists.mp h.splitAttempts
  rw [check, hlimit, ht, hsize, hcutoff, hdivision, hattempts]
  exact ⟨_, rfl⟩

/-- The number in a variable, or else a standard one, is not below the bound. -/
theorem isSome_atLeast?_getD {limit : DigitLimit} {bound n : ℕ} (raw : Option String)
    (h : bound ≤ n) :
    (atLeast? bound (some ((boundedInteger? limit raw bound).getD n))).isSome := by
  have hbound : (bound : Int) ≤ (boundedInteger? limit raw bound).getD n := by
    rw [boundedInteger?]
    cases raw.bind (readInteger? limit) with
    | none => exact Int.ofNat_le.mpr h
    | some i => exact Int.le_max_left _ i
  rw [atLeast?, dif_pos (by omega)]
  rfl

/-- The double in a variable, or else a standard one, is an admitted tolerance. -/
theorem isSome_admitted?_getD {x : Binary64} (raw : Option String) (h : admitsTolerance x = true) :
    (admitted? (some ((openInterval? raw (Binary64.zero false) Binary64.one).getD x))).isSome := by
  have hadmits : admitsTolerance
      ((openInterval? raw (Binary64.zero false) Binary64.one).getD x) = true := by
    rw [openInterval?]
    split
    · split
      · assumption
      · exact h
    · exact h
  rw [admitted?, dif_pos hadmits]
  rfl

theorem withinBounds_draftOfEnvironment (limit : DigitLimit) (get? : String → Option String) :
    (draftOfEnvironment limit get?).WithinBounds where
  smallPrimeLimit := isSome_atLeast?_getD _ (default : Settings).two_le_smallPrimeLimit
  tolerance := isSome_admitted?_getD _ (default : Settings).tolerance_admitted
  factorialTableSize := isSome_atLeast?_getD _ (default : Settings).factorialTableSize_pos
  simpleFactorialCutoff := isSome_atLeast?_getD _ (Nat.zero_le _)
  trialDivisionLimit := isSome_atLeast?_getD _ (Nat.zero_le _)
  splitAttempts := isSome_atLeast?_getD _ (default : Settings).splitAttempts_pos

/-- **Whatever the variables say**, there are settings that they ask for. -/
theorem exists_ofEnvironment (limit : DigitLimit) (get? : String → Option String) :
    ∃ s, ofEnvironment limit get? = .ok s :=
  (withinBounds_draftOfEnvironment limit get?).exists_check

end Settings

end ExactNumerics
