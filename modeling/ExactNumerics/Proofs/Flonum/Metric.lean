import ExactNumerics.Catalogue.Doubles
import ExactNumerics.Proofs.Binary64.Step
import ExactNumerics.Proofs.Flonum.Discrepancy

/-!
# Errors are distances

A number to measure has a value among the rational numbers and the two infinities, unless it is a
NaN. Whether it is an integer, a truth value, a ratio or a double makes no difference: numbers agree
exactly if their values do. So the absolute error is the distance of two values, if infinities are
taken to be infinitely far away from everything else, and as such it is a metric. The relative error
is the same distance in proportion to the reference.

That two numbers agree is tested before the distance is taken. For finite numbers this makes no
difference, as their distance is zero then. It is needed for the infinities.

## Main definitions

* `Quantity.toEReal` — the value of a number to measure
* `IsDistance x r e` — the distance of `x` and `r` is `e`
* `MetricLaws`, `ProportionLaws` — the laws of the two errors
* `Catalogue.absoluteErrorOf`, `Catalogue.relativeErrorOf` — the errors of operands of any kind

## Main results

* `Quantity.agrees_iff` — numbers agree if their values do
* `isDistance_iff` — the absolute error is the distance
* `toEReal_absoluteError_le_add`, `metricLaws` — the triangle inequality and the other laws
* `proportionLaws` — the relative error
* `Catalogue.errors_metric` — what is measured of operands of any kind
-/

namespace ExactNumerics

open Binary64

variable {x r s : Quantity}

/-! ### Values -/

namespace Quantity

/-- The value of a number that is no NaN. -/
noncomputable def toEReal : Quantity → EReal
  | exact q => ((q : ℝ) : EReal)
  | double y => y.toEReal

/-- The value of a finite number is rational. -/
theorem toEReal_of_isFinite (h : x.isFinite) : x.toEReal = ((x.toRat : ℝ) : EReal) := by
  cases x with
  | exact q => rfl
  | double y => exact Binary64.toEReal_of_isFinite h

theorem not_isNaN_of_isFinite (h : x.isFinite) : ¬ x.isNaN := by
  cases x with
  | exact q => exact Bool.false_ne_true
  | double y => exact Binary64.not_isNaN_of_isFinite h

/-- All other values are infinite. -/
theorem isFinite_iff (h : ¬ x.isNaN) : x.isFinite ↔ x.toEReal ≠ ⊤ ∧ x.toEReal ≠ ⊥ := by
  refine ⟨fun hfin => ?_, fun hne => ?_⟩
  · rw [toEReal_of_isFinite hfin]
    exact ⟨EReal.coe_ne_top _, EReal.coe_ne_bot _⟩
  · cases x with
    | exact q => rfl
    | double y =>
      rcases isFinite_or_infinite h with hfin | ⟨-, htop⟩ | ⟨-, hbot⟩
      · exact hfin
      · exact absurd htop hne.1
      · exact absurd hbot hne.2

/-- Finite numbers have the same value if the rational numbers are the same. -/
theorem toEReal_eq_iff (hx : x.isFinite) (hr : r.isFinite) :
    x.toEReal = r.toEReal ↔ x.toRat = r.toRat := by
  rw [toEReal_of_isFinite hx, toEReal_of_isFinite hr, EReal.coe_eq_coe_iff, Rat.cast_inj]

/-- Numbers of the same value are finite together. -/
theorem isFinite_congr (hx : ¬ x.isNaN) (hr : ¬ r.isNaN) (h : x.toEReal = r.toEReal) :
    x.isFinite ↔ r.isFinite := by
  rw [isFinite_iff hx, isFinite_iff hr, h]

/-- The comparison of doubles compares their values. -/
theorem eq_eq_true_iff {y z : Binary64} (hy : ¬ y.isNaN) (hz : ¬ z.isNaN) :
    y.eq z = true ↔ y.toEReal = z.toEReal := by
  have hvalues : y.toEReal = z.toEReal ↔ y.ordinal = z.ordinal := by
    rw [le_antisymm_iff, toEReal_le_iff hy hz, toEReal_le_iff hz hy, ← le_antisymm_iff]
  rw [hvalues]
  simp [Binary64.eq, hy, hz]

/-- **Numbers agree if their values do**, of whichever kinds they are. -/
theorem agrees_iff (hx : ¬ x.isNaN) (hr : ¬ r.isNaN) : x.agrees r ↔ x.toEReal = r.toEReal := by
  by_cases hfin : x.isFinite ∧ r.isFinite
  · obtain ⟨hxf, hrf⟩ := hfin
    rw [agrees.eq_def, if_pos (by rw [hxf, hrf]; rfl), toEReal_eq_iff hxf hrf, beq_iff_eq]
  · rw [agrees.eq_def, if_neg (by simpa using hfin)]
    have hcongr := isFinite_congr hx hr
    -- an exact number and an infinity are never equal
    cases x with
    | exact p => exact iff_of_false Bool.false_ne_true fun h => hfin ⟨rfl, (hcongr h).mp rfl⟩
    | double y =>
      cases r with
      | exact q => exact iff_of_false Bool.false_ne_true fun h => hfin ⟨(hcongr h).mpr rfl, rfl⟩
      | double z => exact eq_eq_true_iff hx hr

end Quantity

/-! ### The absolute error -/

theorem absoluteError_of_isNaN (h : x.isNaN ∨ r.isNaN) : absoluteError x r = .double nan := by
  rw [absoluteError, if_pos (by simpa using h)]

section Numbers

variable (hx : ¬ x.isNaN) (hr : ¬ r.isNaN)

include hx hr

/-- Numbers of the same value have no error. -/
theorem absoluteError_of_toEReal_eq (h : x.toEReal = r.toEReal) : absoluteError x r = .exact 0 := by
  rw [absoluteError, if_neg (by simp [hx, hr]), if_pos ((Quantity.agrees_iff hx hr).mpr h)]

/-- The error of other numbers is infinite if one of them is. -/
theorem absoluteError_of_toEReal_ne (h : x.toEReal ≠ r.toEReal)
    (hinf : ¬ (x.isFinite ∧ r.isFinite)) : absoluteError x r = .double (infinity false) := by
  rw [absoluteError, if_neg (by simp [hx, hr]), if_neg (mt (Quantity.agrees_iff hx hr).mp h),
    if_neg (by simpa using hinf)]

/-- So it is between a finite number and one that is not. -/
theorem absoluteError_of_not_isFinite_iff (h : ¬ (x.isFinite ↔ r.isFinite)) :
    absoluteError x r = .double (infinity false) := by
  refine absoluteError_of_toEReal_ne hx hr (mt (Quantity.isFinite_congr hx hr) h) ?_
  exact fun hfin => h (iff_of_true hfin.1 hfin.2)

end Numbers

/-- **The error of finite numbers is their distance**, whether they agree or not. -/
theorem absoluteError_of_isFinite (hx : x.isFinite) (hr : r.isFinite) :
    absoluteError x r = .exact |x.toRat - r.toRat| := by
  have hxn := Quantity.not_isNaN_of_isFinite hx
  have hrn := Quantity.not_isNaN_of_isFinite hr
  by_cases h : x.toEReal = r.toEReal
  · rw [absoluteError_of_toEReal_eq hxn hrn h, (Quantity.toEReal_eq_iff hx hr).mp h, sub_self,
      abs_zero]
  · rw [absoluteError, if_neg (by simp [hxn, hrn]), if_neg (mt (Quantity.agrees_iff hxn hrn).mp h),
      if_pos (by rw [hx, hr]; rfl), ratAbs_eq_abs]

/-- The number `e` is the distance of two numbers. -/
inductive IsDistance (x r : Quantity) : Quantity → Prop where
  /-- A NaN has no distance from anything. -/
  | nan (h : x.isNaN ∨ r.isNaN) : IsDistance x r (.double nan)
  /-- The distance of finite numbers is exact. -/
  | finite (hx : x.isFinite) (hr : r.isFinite) : IsDistance x r (.exact |x.toRat - r.toRat|)
  /-- An infinity has no distance from itself. -/
  | same (hx : ¬ x.isNaN) (hr : ¬ r.isNaN) (hinf : ¬ (x.isFinite ∧ r.isFinite))
      (h : x.toEReal = r.toEReal) : IsDistance x r (.exact 0)
  /-- It is infinitely far away from everything else. -/
  | apart (hx : ¬ x.isNaN) (hr : ¬ r.isNaN) (hinf : ¬ (x.isFinite ∧ r.isFinite))
      (h : x.toEReal ≠ r.toEReal) : IsDistance x r (.double (infinity false))

/-- **The absolute error is the distance.** -/
theorem isDistance_iff {e : Quantity} : IsDistance x r e ↔ e = absoluteError x r := by
  constructor
  · intro h
    cases h with
    | nan h => exact (absoluteError_of_isNaN h).symm
    | finite hx hr => exact (absoluteError_of_isFinite hx hr).symm
    | same hx hr _ h => exact (absoluteError_of_toEReal_eq hx hr h).symm
    | apart hx hr hinf h => exact (absoluteError_of_toEReal_ne hx hr h hinf).symm
  · rintro rfl
    by_cases hnan : x.isNaN ∨ r.isNaN
    · rw [absoluteError_of_isNaN hnan]
      exact .nan hnan
    obtain ⟨hx, hr⟩ := not_or.mp hnan
    by_cases hfin : x.isFinite ∧ r.isFinite
    · rw [absoluteError_of_isFinite hfin.1 hfin.2]
      exact .finite hfin.1 hfin.2
    · by_cases heq : x.toEReal = r.toEReal
      · rw [absoluteError_of_toEReal_eq hx hr heq]
        exact .same hx hr hfin heq
      · rw [absoluteError_of_toEReal_ne hx hr heq hfin]
        exact .apart hx hr hfin heq

theorem isDistance_absoluteError (x r : Quantity) : IsDistance x r (absoluteError x r) :=
  isDistance_iff.mpr rfl

/-! ### The metric -/

/-- The positive infinity is beyond all other values. -/
theorem toEReal_infinity : (Quantity.double (infinity false)).toEReal = ⊤ := by
  rcases isFinite_or_infinite (x := infinity false) (by decide) with h | ⟨-, h⟩ | ⟨h, -⟩
  · exact absurd h (by decide)
  · exact h
  · exact absurd h (by decide)

theorem toEReal_exact (q : ℚ) : (Quantity.exact q).toEReal = ((q : ℝ) : EReal) := rfl

namespace IsDistance

variable {e : Quantity}

theorem isNaN_iff (h : IsDistance x r e) : e.isNaN ↔ x.isNaN ∨ r.isNaN := by
  cases h with
  | nan h => exact iff_of_true (by decide) h
  | finite hx hr =>
    exact iff_of_false Bool.false_ne_true (not_or.mpr
      ⟨Quantity.not_isNaN_of_isFinite hx, Quantity.not_isNaN_of_isFinite hr⟩)
  | same hx hr => exact iff_of_false Bool.false_ne_true (not_or.mpr ⟨hx, hr⟩)
  | apart hx hr => exact iff_of_false (by decide) (not_or.mpr ⟨hx, hr⟩)

/-- The distance is symmetric. -/
theorem symm (h : IsDistance x r e) : IsDistance r x e := by
  cases h with
  | nan h => exact .nan h.symm
  | finite hx hr =>
    rw [abs_sub_comm]
    exact .finite hr hx
  | same hx hr hinf h => exact .same hr hx (mt And.symm hinf) h.symm
  | apart hx hr hinf h => exact .apart hr hx (mt And.symm hinf) (Ne.symm h)

/-- The distance is zero between numbers of the same value only. -/
theorem eq_zero_iff (h : IsDistance x r e) (hx : ¬ x.isNaN) (hr : ¬ r.isNaN) :
    e = .exact 0 ↔ x.toEReal = r.toEReal := by
  cases h with
  | nan h => exact absurd h (not_or.mpr ⟨hx, hr⟩)
  | finite hxf hrf =>
    rw [Quantity.exact.injEq, abs_eq_zero, sub_eq_zero, Quantity.toEReal_eq_iff hxf hrf]
  | same _ _ _ h => exact iff_of_true rfl h
  | apart _ _ _ h => exact iff_of_false Quantity.noConfusion h

theorem nonneg (h : IsDistance x r e) (he : ¬ e.isNaN) : 0 ≤ e.toEReal := by
  cases h with
  | nan => exact absurd (by decide) he
  | finite => exact EReal.coe_nonneg.mpr (Rat.cast_nonneg.mpr (abs_nonneg _))
  | same => exact EReal.coe_nonneg.mpr (Rat.cast_nonneg.mpr le_rfl)
  | apart =>
    rw [toEReal_infinity]
    exact le_top

end IsDistance

section Triangle

variable (hx : ¬ x.isNaN) (hr : ¬ r.isNaN)

include hx hr

theorem toEReal_absoluteError_nonneg : 0 ≤ (absoluteError x r).toEReal := by
  have h := isDistance_absoluteError x r
  exact h.nonneg (mt h.isNaN_iff.mp (not_or.mpr ⟨hx, hr⟩))

variable (hs : ¬ s.isNaN)

include hs

/-- A way with an infinite part is infinite. -/
theorem toEReal_absoluteError_le_add_of_infinity
    (h : absoluteError x r = .double (infinity false) ∨
      absoluteError r s = .double (infinity false)) :
    (absoluteError x s).toEReal ≤ (absoluteError x r).toEReal + (absoluteError r s).toEReal := by
  have hleft := ne_bot_of_le_ne_bot EReal.zero_ne_bot (toEReal_absoluteError_nonneg hx hr)
  have hright := ne_bot_of_le_ne_bot EReal.zero_ne_bot (toEReal_absoluteError_nonneg hr hs)
  refine le_top.trans_eq (Eq.symm ?_)
  rcases h with h | h
  · rw [h, toEReal_infinity, EReal.top_add_of_ne_bot hright]
  · rw [h, toEReal_infinity, EReal.add_top_of_ne_bot hleft]

/-- Between numbers that are infinitely far apart, every way has an infinite part. -/
theorem absoluteError_eq_infinity_or (h : x.toEReal ≠ s.toEReal)
    (hinf : ¬ (x.isFinite ∧ s.isFinite)) :
    absoluteError x r = .double (infinity false) ∨
      absoluteError r s = .double (infinity false) := by
  by_cases hxr : x.toEReal = r.toEReal
  · -- the second part is the whole way
    rw [hxr] at h
    rw [Quantity.isFinite_congr hx hr hxr] at hinf
    exact .inr (absoluteError_of_toEReal_ne hr hs h hinf)
  · by_cases hfin : x.isFinite ∧ r.isFinite
    · -- then it is the end that is infinite
      refine .inr (absoluteError_of_not_isFinite_iff hr hs fun hiff => hinf ?_)
      exact ⟨hfin.1, hiff.mp hfin.2⟩
    · exact .inl (absoluteError_of_toEReal_ne hx hr hxr hfin)

/-- **The triangle inequality.** -/
theorem toEReal_absoluteError_le_add :
    (absoluteError x s).toEReal ≤ (absoluteError x r).toEReal + (absoluteError r s).toEReal := by
  by_cases hfin : x.isFinite ∧ s.isFinite
  · by_cases hrf : r.isFinite
    · rw [absoluteError_of_isFinite hfin.1 hfin.2, absoluteError_of_isFinite hfin.1 hrf,
        absoluteError_of_isFinite hrf hfin.2, toEReal_exact, toEReal_exact, toEReal_exact,
        ← EReal.coe_add, EReal.coe_le_coe_iff, ← Rat.cast_add, Rat.cast_le]
      exact abs_sub_le _ _ _
    · refine toEReal_absoluteError_le_add_of_infinity hx hr hs (.inl ?_)
      exact absoluteError_of_not_isFinite_iff hx hr fun hiff => hrf (hiff.mp hfin.1)
  · by_cases heq : x.toEReal = s.toEReal
    · rw [absoluteError_of_toEReal_eq hx hs heq, toEReal_exact, Rat.cast_zero, EReal.coe_zero]
      exact add_nonneg (toEReal_absoluteError_nonneg hx hr) (toEReal_absoluteError_nonneg hr hs)
    · exact toEReal_absoluteError_le_add_of_infinity hx hr hs
        (absoluteError_eq_infinity_or hx hr hs heq hfin)

end Triangle

/-- The absolute error is a metric, with infinity as a distance. -/
structure MetricLaws (x r s : Quantity) : Prop where
  /-- It is zero between numbers of the same value only. -/
  eq_zero_iff : absoluteError x r = .exact 0 ↔ x.toEReal = r.toEReal
  /-- It is symmetric. -/
  comm : absoluteError x r = absoluteError r x
  /-- It satisfies the triangle inequality. -/
  le_add :
    (absoluteError x s).toEReal ≤ (absoluteError x r).toEReal + (absoluteError r s).toEReal

/-- **The absolute error is a metric** on the numbers that are no NaNs. -/
theorem metricLaws (hx : ¬ x.isNaN) (hr : ¬ r.isNaN) (hs : ¬ s.isNaN) : MetricLaws x r s where
  eq_zero_iff := (isDistance_absoluteError x r).eq_zero_iff hx hr
  comm := (isDistance_iff.mp (isDistance_absoluteError r x).symm).symm
  le_add := toEReal_absoluteError_le_add hx hr hs

/-! ### The relative error -/

/-- The relative error of finite numbers is the absolute one in proportion to the reference. -/
structure ProportionLaws (x r : Quantity) : Prop where
  /-- The proportion is exact. -/
  mul_abs : r.toRat ≠ 0 →
    ∃ e, relativeError x r = .exact e ∧ absoluteError x r = .exact (e * |r.toRat|)
  /-- In proportion to zero everything else is infinite. -/
  eq_infinity : r.toRat = 0 → x.toRat ≠ 0 → relativeError x r = .double (infinity false)

theorem relativeError_of_isFinite (hx : x.isFinite) (hr : r.isFinite) :
    relativeError x r = if x.toRat = r.toRat then .exact 0
      else if r.toRat = 0 then .double (infinity false)
      else .exact |(x.toRat - r.toRat) / r.toRat| := by
  have hxn := Quantity.not_isNaN_of_isFinite hx
  have hrn := Quantity.not_isNaN_of_isFinite hr
  have hagrees := (Quantity.agrees_iff hxn hrn).trans (Quantity.toEReal_eq_iff hx hr)
  rw [relativeError, if_neg (by simp [hxn, hrn]), ratAbs_eq_abs]
  by_cases heq : x.toRat = r.toRat
  · rw [if_pos (hagrees.mpr heq), if_pos heq]
  · rw [if_neg (mt hagrees.mp heq), if_neg heq]
    by_cases hzero : r.toRat = 0
    · rw [if_neg (by simp [hzero]), if_pos hzero]
    · rw [if_pos (by simp [hx, hr, hzero]), if_neg hzero]

/-- **The relative error is a proportion.** -/
theorem proportionLaws (hx : x.isFinite) (hr : r.isFinite) : ProportionLaws x r where
  mul_abs hne := by
    rw [relativeError_of_isFinite hx hr, absoluteError_of_isFinite hx hr]
    by_cases heq : x.toRat = r.toRat
    · exact ⟨0, by rw [if_pos heq], by rw [heq, sub_self, abs_zero, zero_mul]⟩
    · refine ⟨_, by rw [if_neg heq, if_neg hne], ?_⟩
      rw [abs_div, div_mul_cancel₀ _ (abs_ne_zero.mpr hne)]
  eq_infinity hzero hne := by
    rw [relativeError_of_isFinite hx hr, if_neg (by rwa [hzero]), if_pos hzero]

/-! ### Operands of any kind -/

namespace Catalogue

open Parameter Operation

variable {v w u : Value}

/-- The absolute error of two operands. -/
def absoluteErrorOf (v w : Value) : Except Failure Value :=
  measured (fun x r => return ofQuantity (absoluteError x r)) v w

/-- The relative error of two operands. -/
def relativeErrorOf (v w : Value) : Except Failure Value :=
  measured (fun x r => return ofQuantity (relativeError x r)) v w

/-- They are what the operations of these names compute. -/
theorem mem_errors :
    ("absolute_error", binary (required "x") (required "r") absoluteErrorOf) ∈ errors ∧
      ("relative_error", binary (required "x") (required "r") relativeErrorOf) ∈ errors :=
  ⟨.head _, .tail _ (.head _)⟩

/-- An error that is a NaN for a NaN may be looked at after the first operand. -/
theorem measured_eq {f : Quantity → Quantity → Quantity} (hv : v.quantity = .ok x)
    (hw : w.quantity = .ok r) (hnan : x.isNaN → f x r = .double nan) :
    measured (fun x r => return ofQuantity (f x r)) v w = .ok (ofQuantity (f x r)) := by
  rw [measured, hv, ok_bind, hw, ok_bind]
  split
  · rename_i h
    rw [hnan h]
    rfl
  · rfl

theorem absoluteErrorOf_eq (hv : v.quantity = .ok x) (hw : w.quantity = .ok r) :
    absoluteErrorOf v w = .ok (ofQuantity (absoluteError x r)) :=
  measured_eq hv hw fun h => absoluteError_of_isNaN (.inl h)

theorem relativeErrorOf_eq (hv : v.quantity = .ok x) (hw : w.quantity = .ok r) :
    relativeErrorOf v w = .ok (ofQuantity (relativeError x r)) :=
  measured_eq hv hw fun h => by rw [relativeError, if_pos (by simp [h])]

/-- **What is measured of numbers of any kind.** The absolute error is the distance of the values,
and a metric on those that are no NaNs; the relative error is that distance in proportion to the
reference. -/
theorem errors_metric (hv : v.quantity = .ok x) (hw : w.quantity = .ok r)
    (hu : u.quantity = .ok s) :
    absoluteErrorOf v w = .ok (ofQuantity (absoluteError x r)) ∧
      relativeErrorOf v w = .ok (ofQuantity (relativeError x r)) ∧
      absoluteErrorOf v u = .ok (ofQuantity (absoluteError x s)) ∧
      absoluteErrorOf w u = .ok (ofQuantity (absoluteError r s)) ∧
      (x.isFinite → x.toEReal = ((x.toRat : ℝ) : EReal)) ∧
      IsDistance x r (absoluteError x r) ∧
      ((absoluteError x r).isNaN ↔ x.isNaN ∨ r.isNaN) ∧
      (¬ x.isNaN → ¬ r.isNaN → ¬ s.isNaN → MetricLaws x r s) ∧
      (x.isFinite → r.isFinite → ProportionLaws x r) :=
  ⟨absoluteErrorOf_eq hv hw, relativeErrorOf_eq hv hw, absoluteErrorOf_eq hv hu,
    absoluteErrorOf_eq hw hu, Quantity.toEReal_of_isFinite, isDistance_absoluteError x r,
    (isDistance_absoluteError x r).isNaN_iff, metricLaws, proportionLaws⟩

/-- The double nearest to a tenth is not a tenth, and this is how far it is off. The third operand
is a truth value. -/
theorem errors_metric_tenth :
    (Value.double ⟨0x3FB999999999999A⟩).quantity = .ok (.double ⟨0x3FB999999999999A⟩) ∧
      (Value.ratio (1 / 10)).quantity = .ok (.exact (1 / 10)) ∧
      (Value.truth true).quantity = .ok (.exact 1) ∧
      absoluteErrorOf (.double ⟨0x3FB999999999999A⟩) (.ratio (1 / 10)) =
        .ok (.ratio (1 / 180143985094819840)) ∧
      MetricLaws (.double ⟨0x3FB999999999999A⟩) (.exact (1 / 10)) (.exact 1) ∧
      ProportionLaws (.double ⟨0x3FB999999999999A⟩) (.exact (1 / 10)) := by
  have hv : (Value.double ⟨0x3FB999999999999A⟩).quantity = .ok (.double ⟨0x3FB999999999999A⟩) := rfl
  have hw : (Value.ratio (1 / 10)).quantity = .ok (.exact (1 / 10)) := rfl
  have hu : (Value.truth true).quantity = .ok (.exact 1) := rfl
  have herror : absoluteError (.double ⟨0x3FB999999999999A⟩) (.exact (1 / 10)) =
      .exact (1 / 180143985094819840) := by decide +kernel
  obtain ⟨habsolute, -, -, -, -, -, -, hmetric, hproportion⟩ := errors_metric hv hw hu
  rw [herror] at habsolute
  exact ⟨hv, hw, hu, habsolute, hmetric (by decide) (by decide) (by decide),
    hproportion (by decide) (by decide)⟩

end Catalogue

end ExactNumerics
