import ExactNumerics.Proofs.Binary64.Ulp

/-!
# Tolerances

A tolerance is compared with zero and one as a double. What it means to pass these two comparisons
is said by its value: it is finite and lies strictly between zero and one. So the two infinities do
not pass, and neither does a NaN, for which a comparison with anything fails.

## Main results

* `Settings.admitsTolerance_iff` — the admitted tolerances
-/

namespace ExactNumerics

variable {t : Binary64}

namespace Binary64

/-- A tolerance is a finite double between zero and one. -/
theorem toRat_of_admitsTolerance (h : Settings.admitsTolerance t = true) :
    t.isFinite ∧ 0 < t.toRat ∧ t.toRat < 1 := by
  have hzero : (zero false).ordinal = 0 := by decide
  have hone : one.ordinal < infinityOrdinal := by decide
  simp only [Settings.admitsTolerance, lt, Bool.and_eq_true, decide_eq_true_eq] at h
  obtain ⟨⟨-, hpos⟩, -, hlt⟩ := h
  refine ⟨isFinite_iff_ordinal.mpr (by omega), ?_, ?_⟩
  · rw [← toRat_zero false]
    exact toRat_lt_iff.mpr hpos
  · rw [← toRat_one]
    exact toRat_lt_iff.mpr hlt

end Binary64

namespace Settings

open Binary64

/-- **The admitted tolerances** are the finite doubles between zero and one. -/
theorem admitsTolerance_iff :
    admitsTolerance t = true ↔ t.isFinite ∧ 0 < t.toRat ∧ t.toRat < 1 := by
  refine ⟨toRat_of_admitsTolerance, ?_⟩
  rintro ⟨hfin, hpos, hlt⟩
  rw [← toRat_zero false, toRat_lt_iff] at hpos
  rw [← toRat_one, toRat_lt_iff] at hlt
  have hnan : t.isNaN = false := by simpa using not_isNaN_of_isFinite hfin
  have hzero : (zero false).isNaN = false := by decide
  have hone : one.isNaN = false := by decide
  simp only [admitsTolerance, lt, hnan, hzero, hone, Bool.not_false, Bool.true_and,
    Bool.and_eq_true, decide_eq_true_eq]
  exact ⟨hpos, hlt⟩

end Settings

end ExactNumerics
