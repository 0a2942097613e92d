import ExactNumerics.Flonum.Discrepancy
import ExactNumerics.Proofs.Binary64.Ulp
import ExactNumerics.Proofs.Failure

/-!
# Errors in units of the last place

The error of one finite double against another is a quotient of rational numbers, and a double only
after it has been rounded. The unit in the last place is never zero, so there always is a quotient,
and a double that it is rounded to. Infinity is such a double: a unit is as small as `2 ^ -1074`,
while the distance may be that of ordinary numbers.

The rounding, however, refuses a number that is out of range. So there is an error wherever the
quotient is below the bound from which on numbers are rounded to infinity, and where it is not, the
measurement fails, instead of being infinite as other errors are that have no finite value.

## Main definitions

* `ulpQuotient x r` — the distance of `x` and `r` divided by the unit in the last place of `r`
* `IsUlpError x r y` — `y` is the error of `x` against `r`

## Main results

* `existsUnique_isUlpError` — there always is an error, and only one
* `isUlpError_iff_eq_infinity` — it is infinite from the bound on
* `ulpError_double` — what is measured of finite doubles
* `ulpError_isUlpError_iff` — when the error is measured
* `not_isUlpError_one_zero` — and that it is not always measured
-/

namespace ExactNumerics

open Binary64

variable {x y r : Binary64}

/-- The distance of two doubles in proportion to the unit in the last place of the second. -/
def ulpQuotient (x r : Binary64) : ℚ := |x.toRat - r.toRat| / r.ulp.toRat

/-- The error in units of the last place. Against an equal double it is zero, and otherwise it is
the double nearest to the quotient, or infinity if that is beyond the range of the doubles. -/
structure IsUlpError (x r y : Binary64) : Prop where
  /-- Equal doubles have no error. -/
  eq_zero : x.toRat = r.toRat → y = zero false
  /-- The error of other doubles is rounded once. -/
  roundsTo : x.toRat ≠ r.toRat → RoundsTo (ulpQuotient x r) y

/-- **There always is an error**, and only one. -/
theorem existsUnique_isUlpError (x r : Binary64) : ∃! y, IsUlpError x r y := by
  by_cases heq : x.toRat = r.toRat
  · refine ⟨zero false, ⟨fun _ => rfl, fun hne => absurd heq hne⟩, ?_⟩
    intro y hy
    exact hy.eq_zero heq
  · refine ⟨ofRat (ulpQuotient x r), ⟨fun h => absurd h heq, fun _ => roundsTo_ofRat _⟩, ?_⟩
    intro y hy
    exact roundsTo_iff.mp (hy.roundsTo heq)

/-- Against an equal double the quotient is zero, so it is below the bound. -/
theorem ulpQuotient_lt_of_toRat_eq (h : x.toRat = r.toRat) : ulpQuotient x r < overflowBound := by
  rw [ulpQuotient, h, sub_self, abs_zero, zero_div]
  exact one_pos.trans one_lt_overflowBound

theorem toRat_ne_of_le (h : overflowBound ≤ ulpQuotient x r) : x.toRat ≠ r.toRat := by
  intro heq
  exact absurd (ulpQuotient_lt_of_toRat_eq heq) (not_lt.mpr h)

/-- From the bound on, the error is infinite. -/
theorem isUlpError_iff_eq_infinity (h : overflowBound ≤ ulpQuotient x r) :
    IsUlpError x r y ↔ y = infinity false := by
  have hinfinity : IsUlpError x r (infinity false) :=
    ⟨fun heq => absurd heq (toRat_ne_of_le h), fun _ => roundsTo_infinity h⟩
  constructor
  · intro hy
    exact (existsUnique_isUlpError x r).unique hy hinfinity
  · rintro rfl
    exact hinfinity

/-! ### What is measured -/

theorem ratAbs_eq_abs (q : ℚ) : ratAbs q = |q| := by
  rw [ratAbs]
  split
  · exact (abs_of_neg ‹_›).symm
  · exact (abs_of_nonneg (not_lt.mp ‹_›)).symm

/-- A rational number is converted by rounding, and refused if that is to infinity. -/
theorem toDouble_exact (q : ℚ) :
    Quantity.toDouble (.exact q) =
      if |q| < overflowBound then .ok (ofRat q) else .error (.unworded .overflow) := by
  have hround := roundsTo_ofRat q
  have hinf : (ofRat q).isInfinite = !(ofRat q).isFinite := by
    have hnan := hround.not_isNaN
    simp only [isNaN, isFinite, isInfinite, decide_eq_true_eq] at hnan ⊢
    rw [Bool.eq_iff_iff, beq_iff_eq, Bool.not_eq_true', decide_eq_false_iff_not]
    omega
  simp only [Quantity.toDouble, ofRat?, hinf]
  by_cases hq : |q| < overflowBound
  · rw [hround.isFinite_iff.mpr hq, if_pos hq]
    rfl
  · rw [Bool.eq_false_iff.mpr (mt hround.isFinite_iff.mp hq), if_neg hq]
    rfl

/-- **The measurement of finite doubles.** -/
theorem ulpError_double (hx : x.isFinite) (hr : r.isFinite) :
    ulpError (.double x) (.double r) =
      if x.toRat = r.toRat then .ok (zero false)
      else if ulpQuotient x r < overflowBound then .ok (ofRat (ulpQuotient x r))
      else .error (.unworded .overflow) := by
  have hnan : ((Quantity.double x).isNaN || (Quantity.double r).isNaN) = false := by
    simp [Quantity.isNaN, not_isNaN_of_isFinite hx, not_isNaN_of_isFinite hr]
  have hfin : ((Quantity.double x).isFinite && (Quantity.double r).isFinite) = true := by
    simp [Quantity.isFinite, hx, hr]
  have hagrees : (Quantity.double x).agrees (.double r) = decide (x.toRat = r.toRat) := by
    rw [Quantity.agrees, if_pos hfin]
    rfl
  have hquotient : ratAbs (x.toRat - r.toRat) / r.ulp.toRat = ulpQuotient x r := by
    rw [ratAbs_eq_abs, ulpQuotient]
  have habs : |ulpQuotient x r| = ulpQuotient x r :=
    abs_of_nonneg (div_nonneg (abs_nonneg _) (toRat_ulp_pos hr).le)
  rw [ulpError, hnan, hagrees, hfin, if_neg Bool.false_ne_true, if_pos rfl]
  simp only [decide_eq_true_eq]
  change (if x.toRat = r.toRat then _ else
    Quantity.toDouble (.exact (ratAbs (x.toRat - r.toRat) / r.ulp.toRat))) = _
  rw [hquotient, toDouble_exact, habs]

/-- Below the bound, the error is measured. -/
theorem exists_ulpError (hx : x.isFinite) (hr : r.isFinite)
    (h : ulpQuotient x r < overflowBound) :
    ∃ y, ulpError (.double x) (.double r) = .ok y ∧ IsUlpError x r y := by
  rw [ulpError_double hx hr]
  by_cases heq : x.toRat = r.toRat
  · rw [if_pos heq]
    exact ⟨_, rfl, fun _ => rfl, fun hne => absurd heq hne⟩
  · rw [if_neg heq, if_pos h]
    exact ⟨_, rfl, fun h => absurd h heq, fun _ => roundsTo_ofRat _⟩

/-- From the bound on, the measurement fails. -/
theorem ulpError_eq_error (hx : x.isFinite) (hr : r.isFinite)
    (h : overflowBound ≤ ulpQuotient x r) :
    ulpError (.double x) (.double r) = .error (.unworded .overflow) := by
  rw [ulpError_double hx hr, if_neg (toRat_ne_of_le h), if_neg (not_lt.mpr h)]

/-- **The error is measured exactly below the bound.** From there on it is infinite, and the
measurement fails. -/
theorem ulpError_isUlpError_iff (hx : x.isFinite) (hr : r.isFinite) :
    ((∃ y, ulpError (.double x) (.double r) = .ok y ∧ IsUlpError x r y) ↔
        ulpQuotient x r < overflowBound) ∧
      (overflowBound ≤ ulpQuotient x r →
        ulpError (.double x) (.double r) = .error (.unworded .overflow) ∧
          ∀ y, IsUlpError x r y ↔ y = infinity false) := by
  constructor
  · refine ⟨?_, exists_ulpError hx hr⟩
    rintro ⟨y, hy, -⟩
    by_contra hnot
    rw [ulpError_eq_error hx hr (not_lt.mp hnot)] at hy
    exact absurd hy (by simp)
  · intro hle
    exact ⟨ulpError_eq_error hx hr hle, fun y => isUlpError_iff_eq_infinity hle⟩

/-- The double above one is one unit in the last place away from it. -/
theorem ulpQuotient_next_one : ulpQuotient one.next one = 1 := by
  have habs : one.abs = one := by decide
  have hfin : one.isFinite := by decide
  obtain ⟨-, -, hunits⟩ := next_abs hfin (by decide)
  rw [habs] at hunits
  rw [ulpQuotient, toRat_sub_toRat hfin hunits, abs_of_pos (toRat_ulp_pos hfin),
    div_self (toRat_ulp_pos hfin).ne']

theorem ulpError_isUlpError_next_one :
    one.next.isFinite ∧ one.isFinite ∧
      ∃ y, ulpError (.double one.next) (.double one) = .ok y ∧ IsUlpError one.next one y := by
  refine ⟨by decide, by decide, (ulpError_isUlpError_iff (by decide) (by decide)).1.mpr ?_⟩
  rw [ulpQuotient_next_one]
  exact one_lt_overflowBound

/-- Against zero, one is `2 ^ 1074` units in the last place off. -/
theorem ulpQuotient_one_zero : ulpQuotient one (zero false) = 2 ^ 1074 := by
  have hspacing : spacing (zero false).magnitude = 0 := by decide
  rw [ulpQuotient, toRat_one, toRat_zero, toRat_ulp (isFinite_zero false), hspacing, sub_zero,
    abs_one, pow_zero, one_div_one_div, ratCast_unitsPerOne]

/-- **The error of one against zero is infinite, but not measured.** -/
theorem not_isUlpError_one_zero :
    one.isFinite ∧ (zero false).isFinite ∧
      (∀ y, IsUlpError one (zero false) y ↔ y = infinity false) ∧
      ulpError (.double one) (.double (zero false)) = .error (.unworded .overflow) ∧
      ¬ ∃ y, ulpError (.double one) (.double (zero false)) = .ok y ∧
        IsUlpError one (zero false) y := by
  have hone : one.isFinite := by decide
  have hle : overflowBound ≤ ulpQuotient one (zero false) := by
    rw [ulpQuotient_one_zero]
    exact overflowBound_le_two_pow (by decide)
  have herror := ulpError_eq_error hone (isFinite_zero false) hle
  refine ⟨hone, isFinite_zero false, fun y => isUlpError_iff_eq_infinity hle, herror, ?_⟩
  rintro ⟨y, hy, -⟩
  rw [herror] at hy
  exact absurd hy (by simp)

end ExactNumerics
