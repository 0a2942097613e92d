import ExactNumerics.Proofs.Integer.Root
import ExactNumerics.Proofs.Loop

/-!
# The descent to an integer root

That the integer root is right needs one bound: Newton's iteration does not fall below the root.
What the iteration does above the root does not matter for it, because the guard after the iteration
would step down from any value. This module is about the iteration itself, and shows that the guard
has nothing to do.

A value above the root has a power above the radicand, so the quotient of its step is less than the
value and the step decreases. From the root itself no step decreases, since none falls below it. So
the test of the iteration holds exactly above the root (`newtonStep_lt_iff`), and an iteration that
starts above it decreases strictly and stops at it.

## Main definitions

* `newtonIterate x y i` — the value of the iteration after `i` steps

## Main results

* `newtonStep_lt_iff` — the iteration goes on exactly above the root
* `exists_stopsAfter_newtonDescent`, `exists_stopsAfter_stepDownToRoot` — the two loops end
* `newtonDescent_eq` — the iteration stops at the root
* `newtonRoot_descends` — the whole run
-/

namespace ExactNumerics

variable {x y r s : ℕ}

/-! ### The root among the values of the iteration -/

namespace IsRoot

/-- Above the root, the power exceeds the radicand. -/
theorem lt_pow_iff (h : IsRoot x y s) : x < r ^ y ↔ s < r := by
  rw [← not_le, ← not_le, h.pow_le_iff]

/-- The root of a positive number is positive. -/
theorem pos (h : IsRoot x y s) (hx : 0 < x) : 0 < s := by
  refine h.pow_le_iff.mp ?_
  rw [Nat.one_pow]
  exact hx

/-- **The iteration starts strictly above the root.** -/
theorem lt_newtonStart (h : IsRoot x y s) (hy : 0 < y) : s < newtonStart x y :=
  h.lt_pow_iff.mp (lt_newtonStart_pow x hy)

end IsRoot

/-- **A step decreases** if the power of its value exceeds the radicand. -/
theorem newtonStep_lt (hy : 0 < y) (hpow : x < r ^ y) : newtonStep x y r < r := by
  obtain ⟨k, rfl⟩ : ∃ k, y = k + 1 := ⟨y - 1, by omega⟩
  have hquotient : x / r ^ k < r := Nat.div_lt_of_lt_mul (by rwa [← pow_succ])
  rw [newtonStep, Nat.add_sub_cancel, Nat.div_lt_iff_lt_mul hy, Nat.mul_succ, Nat.mul_comm r]
  omega

/-- **The iteration goes on exactly above the root.** -/
theorem newtonStep_lt_iff (hy : 0 < y) (h : IsRoot x y s) (hs : 0 < s) (hsr : s ≤ r) :
    newtonStep x y r < r ↔ s < r := by
  constructor
  · intro hlt
    have hstep : s ≤ newtonStep x y r := le_newtonStep hy (hs.trans_le hsr) h.pow_le
    exact hstep.trans_lt hlt
  · intro hlt
    exact newtonStep_lt hy (h.lt_pow_iff.mpr hlt)

/-! ### The loops -/

/-- Newton's iteration ends. -/
theorem exists_stopsAfter_newtonDescent (x y r : ℕ) :
    ∃ k, StopsAfter (fun t => newtonStep x y t < t) (newtonStep x y) r k (newtonDescent x y r) := by
  fun_induction newtonDescent x y r with
  | case1 r hlt ih =>
    obtain ⟨k, hk⟩ := ih
    exact ⟨k + 1, hk.round hlt⟩
  | case2 r hge => exact ⟨0, stopsAfter_zero hge⟩

/-- Stepping down ends. -/
theorem exists_stopsAfter_stepDownToRoot (hy : 0 < y) (r : ℕ) :
    ∃ k, StopsAfter (fun t => x < t ^ y) Nat.pred r k (stepDownToRoot x y r) := by
  induction r with
  | zero => exact ⟨0, stopsAfter_zero (by rw [Nat.zero_pow hy]; exact Nat.not_lt_zero x)⟩
  | succ r ih =>
    rw [stepDownToRoot]
    split
    · rename_i hlt
      obtain ⟨k, hk⟩ := ih
      exact ⟨k + 1, hk.round hlt⟩
    · rename_i hge
      exact ⟨0, stopsAfter_zero hge⟩

/-- No value of the iteration is below the root, if the first is not. -/
theorem le_iterate_newtonStep (hy : 0 < y) (hs : 0 < s) (hpow : s ^ y ≤ x) (hsr : s ≤ r) (i : ℕ) :
    s ≤ (newtonStep x y)^[i] r := by
  induction i with
  | zero => exact hsr
  | succ i ih =>
    rw [Function.iterate_succ_apply']
    exact le_newtonStep hy (hs.trans_le ih) hpow

/-- **The iteration stops at the root.** -/
theorem newtonDescent_eq (hy : 0 < y) (h : IsRoot x y s) (hs : 0 < s) (hsr : s ≤ r) :
    newtonDescent x y r = s := by
  obtain ⟨k, hk⟩ := exists_stopsAfter_newtonDescent x y r
  have hle : s ≤ newtonDescent x y r := hk.iterate ▸ le_iterate_newtonStep hy hs h.pow_le hsr k
  have hge : ¬ s < newtonDescent x y r := (newtonStep_lt_iff hy h hs hle).not.mp hk.fails
  omega

/-- The guard steps down from no value whose power does not exceed the radicand. -/
theorem stopsAfter_stepDownToRoot_zero (hy : 0 < y) (hpow : r ^ y ≤ x) :
    StopsAfter (fun t => x < t ^ y) Nat.pred r 0 (stepDownToRoot x y r) := by
  obtain ⟨k, hk⟩ := exists_stopsAfter_stepDownToRoot (x := x) hy r
  obtain ⟨rfl, -⟩ := hk.unique (stopsAfter_zero hpow.not_gt)
  exact hk

/-! ### The whole run -/

/-- The value of the iteration after `i` steps. -/
def newtonIterate (x y i : ℕ) : ℕ := (newtonStep x y)^[i] (newtonStart x y)

/-- Past the cases with a short answer, the root is found by the iteration and the guard. -/
theorem integerRoot_eq_newtonRoot (hx : 2 ≤ x) (hy : 3 ≤ y) (hlength : y < bitLength x) :
    integerRoot x y = newtonRoot x y := by
  have hshort : ¬ (decide (x < 2) || decide (y = 1)) = true := by
    simp only [Bool.or_eq_true, decide_eq_true_eq, not_or]
    omega
  rw [integerRoot, if_neg hshort, if_neg (by omega), if_neg (by omega)]

/-- **The iteration descends to the root, and the guard does nothing.** The iteration starts
strictly above the root `r`. From any value above the root a step decreases strictly, so the `k`
values after the first are each less than the one before. None of them is below the root, the last
one is the root, and there the iteration stops. A step divides by a power of its value, which is
never zero. The guard after the iteration stops without a step. -/
theorem newtonRoot_descends (hx : 2 ≤ x) (hy : 3 ≤ y) (hlength : y < bitLength x) :
    ∃ r k, IsRoot x y r ∧ r < newtonStart x y ∧
      (∀ t, r ≤ t → (newtonStep x y t < t ↔ r < t)) ∧
      StopsAfter (fun t => newtonStep x y t < t) (newtonStep x y) (newtonStart x y) k r ∧
      newtonDescent x y (newtonStart x y) = r ∧
      (∀ i < k, newtonIterate x y (i + 1) < newtonIterate x y i) ∧
      (∀ i, r ≤ newtonIterate x y i ∧ newtonIterate x y i ^ (y - 1) ≠ 0) ∧
      StopsAfter (fun t => x < t ^ y) Nat.pred (newtonDescent x y (newtonStart x y)) 0
        (newtonRoot x y) ∧
      integerRoot x y = newtonRoot x y ∧ newtonRoot x y = r := by
  have hpos : 0 < y := by omega
  have hroot := isRoot_newtonRoot x hpos
  have hr : 0 < newtonRoot x y := hroot.pos (by omega)
  have hstart := hroot.lt_newtonStart hpos
  have hlast : newtonDescent x y (newtonStart x y) = newtonRoot x y :=
    newtonDescent_eq hpos hroot hr hstart.le
  obtain ⟨k, hk⟩ := exists_stopsAfter_newtonDescent x y (newtonStart x y)
  refine ⟨newtonRoot x y, k, hroot, hstart, fun t ht => newtonStep_lt_iff hpos hroot hr ht,
    hlast ▸ hk, hlast, fun i hi => ?_, fun i => ?_, ?_,
    integerRoot_eq_newtonRoot hx hy hlength, rfl⟩
  · rw [newtonIterate, Function.iterate_succ_apply']
    exact hk.holds i hi
  · have hle : newtonRoot x y ≤ newtonIterate x y i :=
      le_iterate_newtonStep hpos hr hroot.pow_le hstart.le i
    exact ⟨hle, (Nat.pow_pos (hr.trans_le hle)).ne'⟩
  · exact stopsAfter_stepDownToRoot_zero hpos (hlast ▸ hroot.pow_le)

/-- The cube root of a number just below a cube. -/
theorem newtonRoot_descends_pred_cube : 2 ≤ 10 ^ 18 - 1 ∧ 3 ≤ 3 ∧ 3 < bitLength (10 ^ 18 - 1) ∧
    newtonDescent (10 ^ 18 - 1) 3 (newtonStart (10 ^ 18 - 1) 3) = 999999 ∧
    newtonRoot (10 ^ 18 - 1) 3 = 999999 := by
  have hlength : 3 < bitLength (10 ^ 18 - 1) := by decide
  obtain ⟨r, k, hroot, -, -, -, hlast, -, -, -, -, hr⟩ :=
    newtonRoot_descends (by decide : 2 ≤ 10 ^ 18 - 1) (by decide : 3 ≤ 3) hlength
  have heq : r = 999999 := hroot.unique ⟨by decide, by decide⟩
  exact ⟨by decide, by decide, hlength, hlast.trans heq, hr.trans heq⟩

end ExactNumerics
