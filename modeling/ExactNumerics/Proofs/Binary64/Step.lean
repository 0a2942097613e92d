import ExactNumerics.Binary64.Spacing
import ExactNumerics.Proofs.Binary64.Ordinal
import Mathlib.Order.Bounds.Defs
import Mathlib.Order.Interval.Set.Defs

/-!
# Steps between doubles

A step adds to the ordinal and is then cut off at the ordinals of the infinities. What is cut off is
an integer, so everything about steps is shown of integers first, and the order isomorphism of
doubles and ordinals carries it over.

The cut keeps the order, and it leaves alone the integers that are ordinals. Hence two steps in a
row are one, unless the first is cut off and the second leads back: the way back then starts at the
infinity, and not where the first step would have ended without the cut. Only a second step that
crosses the whole range makes up for that, since then the sum of both is cut off at the other end.

The double one step above comes next because no integer lies between two consecutive ones.

## Main definitions

* `Binary64.values` — the values of the doubles
* `Binary64.Saturates x n` — the step from `x` is cut off at an infinity
* `Catalogue.StepLaws` — how steps, their order and their number fit together

## Main results

* `Binary64.ordinal_step` — a step on ordinals
* `Binary64.step_step_eq_iff` — when two steps in a row are one step
* `Binary64.isLeast_next`, `Binary64.isGreatest_previous` — the neighbours of a double
* `Catalogue.steps_lawful` — the laws of steps
-/

namespace ExactNumerics

namespace Binary64

variable {x y : Binary64} {i j m n : ℤ}

/-! ### The cut at the infinities -/

theorem natAbs_clampOrdinal_le (i : ℤ) : (clampOrdinal i).natAbs ≤ infinityOrdinal := by
  unfold clampOrdinal
  omega

/-- Ordinals are left alone, and nothing else is. -/
theorem clampOrdinal_eq_self_iff : clampOrdinal i = i ↔ i.natAbs ≤ infinityOrdinal := by
  unfold clampOrdinal
  omega

theorem clampOrdinal_le_clampOrdinal (h : i ≤ j) : clampOrdinal i ≤ clampOrdinal j := by
  unfold clampOrdinal
  omega

/-- **A cut before an addition** makes no difference, unless the addition leads back from where the
cut was, and not across the whole range. -/
theorem clampOrdinal_clampOrdinal_add_iff :
    clampOrdinal (clampOrdinal i + n) = clampOrdinal (i + n) ↔
      ((infinityOrdinal : ℤ) < i → 0 ≤ n ∨ i + n ≤ -(infinityOrdinal : ℤ)) ∧
        (i < -(infinityOrdinal : ℤ) → n ≤ 0 ∨ (infinityOrdinal : ℤ) ≤ i + n) := by
  have hpos : 0 < infinityOrdinal := by decide
  unfold clampOrdinal
  omega

/-! ### Steps on ordinals -/

theorem natAbs_ordinal_le (h : ¬ x.isNaN) : x.ordinal.natAbs ≤ infinityOrdinal := by
  rwa [isNaN_iff_natAbs_ordinal, not_lt] at h

/-- **A step adds to the ordinal.** -/
theorem ordinal_step (h : ¬ x.isNaN) (n : ℤ) :
    (x.step n).ordinal = clampOrdinal (x.ordinal + n) := by
  rw [step, if_neg h, ordinal_ofOrdinal (natAbs_clampOrdinal_le _)]

theorem not_isNaN_step (h : ¬ x.isNaN) (n : ℤ) : ¬ (x.step n).isNaN := by
  rw [isNaN_iff_natAbs_ordinal, ordinal_step h, not_lt]
  exact natAbs_clampOrdinal_le _

/-- Steps that end at the same ordinal end at the same double, as none ends at the negative zero. -/
theorem step_eq_step_iff (hx : ¬ x.isNaN) (hy : ¬ y.isNaN) :
    x.step m = y.step n ↔ clampOrdinal (x.ordinal + m) = clampOrdinal (y.ordinal + n) := by
  constructor
  · intro h
    rw [← ordinal_step hx, ← ordinal_step hy, h]
  · intro h
    rw [step, step, if_neg hx, if_neg hy, h]

/-- The double `n` steps away would lie beyond an infinity. -/
def Saturates (x : Binary64) (n : ℤ) : Prop := infinityOrdinal < (x.ordinal + n).natAbs

/-- A step that is not cut off ends at the sum. -/
theorem ordinal_step_eq_iff (h : ¬ x.isNaN) :
    (x.step n).ordinal = x.ordinal + n ↔ ¬ x.Saturates n := by
  rw [ordinal_step h, clampOrdinal_eq_self_iff, Saturates, not_lt]

theorem not_saturates_of_isFinite (h : ¬ x.isNaN) (hfin : (x.step n).isFinite) :
    ¬ x.Saturates n := by
  rw [isFinite_iff_ordinal, ordinal_step h] at hfin
  rw [Saturates, not_lt]
  unfold clampOrdinal at hfin
  omega

/-- **Two steps in a row are one step**, unless the first is cut off at an infinity and the second
leads back from there, but not beyond the other one. -/
theorem step_step_eq_iff (h : ¬ x.isNaN) :
    (x.step m).step n = x.step (m + n) ↔
      ((infinityOrdinal : ℤ) < x.ordinal + m →
          0 ≤ n ∨ x.ordinal + m + n ≤ -(infinityOrdinal : ℤ)) ∧
        (x.ordinal + m < -(infinityOrdinal : ℤ) →
          n ≤ 0 ∨ (infinityOrdinal : ℤ) ≤ x.ordinal + m + n) := by
  rw [step_eq_step_iff (not_isNaN_step h m) h, ordinal_step h, ← add_assoc,
    clampOrdinal_clampOrdinal_add_iff]

/-! ### The order -/

theorem toEReal_le_iff (hx : ¬ x.isNaN) (hy : ¬ y.isNaN) :
    x.toEReal ≤ y.toEReal ↔ x.ordinal ≤ y.ordinal := by
  rw [← not_lt, toEReal_lt_iff hy hx, not_lt]

/-- **Steps keep the order**, of the doubles and of the numbers of steps. -/
theorem step_le_step (hx : ¬ x.isNaN) (hy : ¬ y.isNaN) (hle : x.toEReal ≤ y.toEReal)
    (hmn : m ≤ n) : (x.step m).toEReal ≤ (y.step n).toEReal := by
  rw [toEReal_le_iff hx hy] at hle
  rw [toEReal_le_iff (not_isNaN_step hx m) (not_isNaN_step hy n), ordinal_step hx, ordinal_step hy]
  exact clampOrdinal_le_clampOrdinal (by omega)

/-- The values of the doubles, infinities included. -/
def values : Set EReal := {v | ∃ z : Binary64, ¬ z.isNaN ∧ z.toEReal = v}

theorem ordinal_lt_of_lt_top (hx : ¬ x.isNaN) (h : x.toEReal < ⊤) :
    x.ordinal < infinityOrdinal := by
  rcases isFinite_or_infinite hx with hfin | ⟨-, htop⟩ | ⟨hbot, -⟩
  · exact (isFinite_iff_ordinal.mp hfin).2
  · exact absurd htop h.ne
  · have hpos : 0 < infinityOrdinal := by decide
    omega

theorem lt_ordinal_of_bot_lt (hx : ¬ x.isNaN) (h : ⊥ < x.toEReal) :
    -(infinityOrdinal : ℤ) < x.ordinal := by
  rcases isFinite_or_infinite hx with hfin | ⟨htop, -⟩ | ⟨-, hbot⟩
  · exact (isFinite_iff_ordinal.mp hfin).1
  · have hpos : 0 < infinityOrdinal := by decide
    omega
  · exact absurd hbot h.ne'

/-- Below the positive infinity, a step up adds one to the ordinal. -/
theorem ordinal_next (hx : ¬ x.isNaN) (h : x.ordinal < infinityOrdinal) :
    x.next.ordinal = x.ordinal + 1 := by
  have hle := natAbs_ordinal_le hx
  refine (ordinal_step_eq_iff hx).mpr ?_
  rw [Saturates]
  omega

/-- Above the negative infinity, a step down takes one from the ordinal. -/
theorem ordinal_previous (hx : ¬ x.isNaN) (h : -(infinityOrdinal : ℤ) < x.ordinal) :
    x.previous.ordinal = x.ordinal - 1 := by
  have hle := natAbs_ordinal_le hx
  refine (ordinal_step_eq_iff hx).mpr ?_
  rw [Saturates]
  omega

/-- **The next double is the least above.** -/
theorem isLeast_next (hx : ¬ x.isNaN) (h : x.toEReal < ⊤) :
    IsLeast (values ∩ Set.Ioi x.toEReal) x.next.toEReal := by
  have hnext := ordinal_next hx (ordinal_lt_of_lt_top hx h)
  have hnan : ¬ x.next.isNaN := not_isNaN_step hx 1
  constructor
  · refine ⟨⟨x.next, hnan, rfl⟩, ?_⟩
    rw [Set.mem_Ioi, toEReal_lt_iff hx hnan]
    omega
  · rintro _ ⟨⟨z, hz, rfl⟩, hlt⟩
    rw [Set.mem_Ioi, toEReal_lt_iff hx hz] at hlt
    rw [toEReal_le_iff hnan hz]
    omega

/-- **The previous double is the greatest below.** -/
theorem isGreatest_previous (hx : ¬ x.isNaN) (h : ⊥ < x.toEReal) :
    IsGreatest (values ∩ Set.Iio x.toEReal) x.previous.toEReal := by
  have hprevious := ordinal_previous hx (lt_ordinal_of_bot_lt hx h)
  have hnan : ¬ x.previous.isNaN := not_isNaN_step hx (-1)
  constructor
  · refine ⟨⟨x.previous, hnan, rfl⟩, ?_⟩
    rw [Set.mem_Iio, toEReal_lt_iff hnan hx]
    omega
  · rintro _ ⟨⟨z, hz, rfl⟩, hlt⟩
    rw [Set.mem_Iio, toEReal_lt_iff hz hx] at hlt
    rw [toEReal_le_iff hz hnan]
    omega

end Binary64

namespace Catalogue

open Binary64

/-! ### The operations -/

theorem stepFrom_double (limit : DigitLimit) (x : Binary64) (n : ℤ) :
    stepFrom limit (.double x) (.integer n) = .ok (.double (x.step n)) := by
  rw [stepFrom, Value.toDouble]
  change (if x.isNaN = true then _ else _) = _
  split
  · rename_i hnan
    rw [step, if_pos hnan]
    rfl
  · rfl

theorem stepsBetween_double {x y : Binary64} (hx : ¬ x.isNaN) (hy : ¬ y.isNaN) :
    stepsBetween (.double x) (.double y) = .ok (.integer (y.ordinal - x.ordinal)) := by
  rw [stepsBetween, ordinalOf_double, ordinalOf_double, if_neg hx, if_neg hy]
  rfl

/-- Steps move along the doubles in their order, as far as the infinities, and steps are counted as
they are made. -/
structure StepLaws : Prop where
  /-- From a double that is no NaN, every number of steps leads to such a double. -/
  stepFrom_ok : ∀ (limit : DigitLimit) (x : Binary64) (n : ℤ), ¬ x.isNaN →
    stepFrom limit (.double x) (.integer n) = .ok (.double (x.step n)) ∧ ¬ (x.step n).isNaN
  /-- Steps keep the order, of the doubles and of the numbers of steps. -/
  le : ∀ (x y : Binary64) (m n : ℤ), ¬ x.isNaN → ¬ y.isNaN → x.toEReal ≤ y.toEReal → m ≤ n →
    (x.step m).toEReal ≤ (y.step n).toEReal
  /-- Steps in one direction are one step, and so are steps the first of which ends at a finite
  double. -/
  step_step : ∀ (x : Binary64) (m n : ℤ), ¬ x.isNaN →
    (0 ≤ m ∧ 0 ≤ n ∨ m ≤ 0 ∧ n ≤ 0 ∨ (x.step m).isFinite) → (x.step m).step n = x.step (m + n)
  /-- Of other steps, the same is true only if the first is not cut off, or if the second crosses
  the whole range. -/
  step_step_iff : ∀ (x : Binary64) (m n : ℤ), ¬ x.isNaN →
    ((x.step m).step n = x.step (m + n) ↔
      ((infinityOrdinal : ℤ) < x.ordinal + m →
          0 ≤ n ∨ x.ordinal + m + n ≤ -(infinityOrdinal : ℤ)) ∧
        (x.ordinal + m < -(infinityOrdinal : ℤ) →
          n ≤ 0 ∨ (infinityOrdinal : ℤ) ≤ x.ordinal + m + n))
  /-- The number of steps to a double leads there. -/
  step_stepsBetween : ∀ x y : Binary64, ¬ x.isNaN → ¬ y.isNaN →
    ∃ n, stepsBetween (.double x) (.double y) = .ok (.integer n) ∧ (x.step n).eq y = true
  /-- As many steps are counted as were made, exactly if they were not cut off. -/
  stepsBetween_step : ∀ (x : Binary64) (n : ℤ), ¬ x.isNaN →
    (stepsBetween (.double x) (.double (x.step n)) = .ok (.integer n) ↔ ¬ x.Saturates n)
  /-- One step up from a double below the positive infinity leads to the least double above. -/
  next : ∀ x : Binary64, ¬ x.isNaN → x.toEReal < ⊤ →
    IsLeast (values ∩ Set.Ioi x.toEReal) x.next.toEReal
  /-- One step down from a double above the negative infinity leads to the greatest double below. -/
  previous : ∀ x : Binary64, ¬ x.isNaN → ⊥ < x.toEReal →
    IsGreatest (values ∩ Set.Iio x.toEReal) x.previous.toEReal

/-- **Steps are lawful.** -/
theorem steps_lawful : StepLaws where
  stepFrom_ok limit x n hx := ⟨stepFrom_double limit x n, not_isNaN_step hx n⟩
  le _ _ _ _ hx hy hle hmn := step_le_step hx hy hle hmn
  step_step := by
    intro x m n hx h
    have hle := natAbs_ordinal_le hx
    rw [step_step_eq_iff hx]
    rcases h with ⟨hm, hn⟩ | ⟨hm, hn⟩ | hfin
    · omega
    · omega
    · have hnot := not_saturates_of_isFinite hx hfin
      rw [Saturates] at hnot
      omega
  step_step_iff _ _ _ hx := step_step_eq_iff hx
  step_stepsBetween := by
    intro x y hx hy
    refine ⟨_, stepsBetween_double hx hy, ?_⟩
    have hle := natAbs_ordinal_le hy
    have hnan := not_isNaN_step hx (y.ordinal - x.ordinal)
    have hord : (x.step (y.ordinal - x.ordinal)).ordinal = y.ordinal := by
      rw [ordinal_step hx, add_sub_cancel, clampOrdinal_eq_self_iff]
      exact hle
    simp [Binary64.eq, hnan, hy, hord]
  stepsBetween_step := by
    intro x n hx
    rw [stepsBetween_double hx (not_isNaN_step hx n), ← ordinal_step_eq_iff hx, Except.ok.injEq,
      Value.integer.injEq, sub_eq_iff_eq_add']
  next _ hx h := isLeast_next hx h
  previous _ hx h := isGreatest_previous hx h

/-- Beyond the greatest double and back again: the first step is cut off, so the second starts at
the infinity. -/
example : (greatest.step 2).step (-2) = greatest.previous ∧ greatest.step (2 + -2) = greatest := by
  decide

end Catalogue

end ExactNumerics
