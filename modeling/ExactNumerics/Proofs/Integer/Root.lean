import ExactNumerics.Integer.Root
import Mathlib.Algebra.Order.Ring.Int
import Mathlib.Algebra.Order.Ring.Pow
import Mathlib.Data.Nat.Sqrt
import Mathlib.Tactic.Ring
import Mathlib.Tactic.Zify

/-!
# Integer roots

A step of Newton's iteration from a positive value never falls below a number `s` with `s ^ y ≤ x`,
however far above it the value was: the power lies above its tangent, and neither of the two
divisions of the step can round a number down past an integer that is below it. So every value of
the iteration stays at or above the root, and the guard at the end can only step down to it.

That is all the root needs. Nothing is used of how fast the iteration decreases, and nothing of why
it stops, apart from its being an iteration on natural numbers that decreases while it runs. That
no value is zero is the same fact for `s = 1`; a step divides by a power of the value.

## Main definitions

* `IsRoot x y r` — the number `r` is the `y`-th root of `x`, rounded down
* `newtonValues x y r` — the values of the iteration from `r` on

## Main results

* `le_newtonStep` — one step does not fall below the root
* `le_of_mem_newtonValues` — nor does the iteration
* `isRoot_integerRoot` — the integer root is the root rounded down
* `integerRootRemainder_pow_add` — root and remainder reconstruct the radicand
* `integerRootRemainder_snd_eq_zero_iff` — and powers are told by their remainder
* `integerRoot_exact` — root, remainder and the values on the way
-/

namespace ExactNumerics

variable {x y r s : ℕ}

/-- The number `r` is the `y`-th root of `x`, rounded down. -/
structure IsRoot (x y r : ℕ) : Prop where
  /-- Its power does not exceed the radicand. -/
  pow_le : r ^ y ≤ x
  /-- The power of the next number does. -/
  lt_pow : x < (r + 1) ^ y

namespace IsRoot

/-- A power does not exceed the radicand exactly up to the root. -/
theorem pow_le_iff (h : IsRoot x y r) : s ^ y ≤ x ↔ s ≤ r := by
  constructor
  · intro hs
    by_contra hlt
    have hpow : (r + 1) ^ y ≤ s ^ y := Nat.pow_le_pow_left (by omega) y
    have := h.lt_pow
    omega
  · intro hs
    exact (Nat.pow_le_pow_left hs y).trans h.pow_le

/-- There is one root at most. -/
theorem unique (hr : IsRoot x y r) (hs : IsRoot x y s) : r = s :=
  le_antisymm (hs.pow_le_iff.mp hr.pow_le) (hr.pow_le_iff.mp hs.pow_le)

end IsRoot

/-! ### Newton's iteration -/

/-- The power lies above its tangent. -/
theorem succ_mul_pow_le (k r s : ℕ) : (k + 1) * s * r ^ k ≤ s ^ (k + 1) + k * r * r ^ k := by
  have h : (r : ℤ) ^ (k + 1) + (k + 1 : ℕ) * (r : ℤ) ^ (k + 1 - 1) * (s - r) ≤
      (r + (s - r)) ^ (k + 1) := pow_add_mul_le_add_pow (by omega) (by omega) (k + 1)
  rw [add_sub_cancel, Nat.add_sub_cancel] at h
  zify
  calc ((k : ℤ) + 1) * s * r ^ k
      = (r ^ (k + 1) + (k + 1 : ℕ) * r ^ k * (s - r)) + k * r * r ^ k := by push_cast; ring
    _ ≤ s ^ (k + 1) + k * r * r ^ k := by gcongr

/-- **One step does not fall below the root.** -/
theorem le_newtonStep (hy : 0 < y) (hr : 0 < r) (hs : s ^ y ≤ x) : s ≤ newtonStep x y r := by
  obtain ⟨k, rfl⟩ : ∃ k, y = k + 1 := ⟨y - 1, by omega⟩
  have hquotient : (k + 1) * s - k * r ≤ x / r ^ k := by
    rw [Nat.le_div_iff_mul_le (Nat.pow_pos hr), Nat.sub_mul]
    have := succ_mul_pow_le k r s
    omega
  rw [newtonStep, Nat.add_sub_cancel, Nat.le_div_iff_mul_le hy, Nat.mul_comm s]
  omega

/-- The values of Newton's iteration from `r` on, down to the one at which it ends. -/
def newtonValues (x y r : ℕ) : List ℕ :=
  if newtonStep x y r < r then r :: newtonValues x y (newtonStep x y r) else [r]
termination_by r

theorem newtonDescent_mem_newtonValues (x y r : ℕ) : newtonDescent x y r ∈ newtonValues x y r := by
  fun_induction newtonDescent x y r with
  | case1 r hlt ih =>
    rw [newtonValues, if_pos hlt]
    exact List.mem_cons_of_mem r ih
  | case2 r hge =>
    rw [newtonValues, if_neg hge]
    exact List.mem_singleton_self r

/-- **The iteration does not fall below the root**, if it starts at or above it. -/
theorem le_of_mem_newtonValues (hy : 0 < y) (hs : 0 < s) (hpow : s ^ y ≤ x) (hsr : s ≤ r) :
    ∀ t ∈ newtonValues x y r, s ≤ t := by
  fun_induction newtonValues x y r with
  | case1 r hlt ih =>
    refine List.forall_mem_cons.mpr ⟨hsr, ih ?_⟩
    exact le_newtonStep hy (hs.trans_le hsr) hpow
  | case2 r hge => simpa using hsr

/-! ### Start and end of the iteration -/

theorem lt_two_pow_bitLength (x : ℕ) : x < 2 ^ bitLength x := by
  unfold bitLength
  split
  · omega
  · exact Nat.lt_log2_self

/-- The iteration starts above the root. -/
theorem lt_newtonStart_pow (x : ℕ) (hy : 0 < y) : x < newtonStart x y ^ y := by
  have hexp : bitLength x ≤ (bitLength x + (y - 1)) / y * y := by
    have hdiv := Nat.div_add_mod' (bitLength x + (y - 1)) y
    have hmod := Nat.mod_lt (bitLength x + (y - 1)) hy
    omega
  calc x < 2 ^ bitLength x := lt_two_pow_bitLength x
    _ ≤ 2 ^ ((bitLength x + (y - 1)) / y * y) := Nat.pow_le_pow_right (by decide) hexp
    _ = newtonStart x y ^ y := by rw [newtonStart, pow_mul]

/-- The guard steps down to the root from any value at or above it. -/
theorem isRoot_stepDownToRoot (hy : 0 < y) (h : x < (r + 1) ^ y) :
    IsRoot x y (stepDownToRoot x y r) := by
  induction r with
  | zero => exact ⟨(Nat.zero_pow hy).trans_le (Nat.zero_le x), h⟩
  | succ r ih =>
    rw [stepDownToRoot]
    split
    · rename_i hlt
      exact ih hlt
    · rename_i hge
      exact ⟨Nat.le_of_not_lt hge, h⟩

/-- **The iteration with the guard finds the root.** -/
theorem isRoot_newtonRoot (x : ℕ) (hy : 0 < y) : IsRoot x y (newtonRoot x y) := by
  refine isRoot_stepDownToRoot hy ?_
  by_contra hle
  -- the number after the last value is not above the root either, so no value is below it
  have hstart : newtonDescent x y (newtonStart x y) + 1 ≤ newtonStart x y := by
    refine (Nat.pow_lt_pow_iff_left hy.ne').mp ?_ |>.le
    exact (Nat.le_of_not_lt hle).trans_lt (lt_newtonStart_pow x hy)
  have hlast := le_of_mem_newtonValues hy (Nat.succ_pos _) (Nat.le_of_not_lt hle) hstart _
    (newtonDescent_mem_newtonValues x y _)
  omega

/-! ### Roots -/

theorem isRoot_self_of_lt_two (hx : x < 2) (hy : 0 < y) : IsRoot x y x := by
  match x, hx with
  | 0, _ => exact ⟨Nat.le_of_eq (Nat.zero_pow hy), by rw [Nat.zero_add, Nat.one_pow]; decide⟩
  | 1, _ => exact ⟨Nat.le_of_eq (Nat.one_pow y), Nat.one_lt_two_pow hy.ne'⟩

theorem isRoot_squareRoot (x : ℕ) : IsRoot x 2 (squareRoot x) := by
  unfold squareRoot
  split
  · rename_i hx
    exact isRoot_self_of_lt_two hx (by decide)
  · exact isRoot_newtonRoot x (by decide)

/-- The square root rounded down is the one of the library. -/
theorem squareRoot_eq_sqrt (x : ℕ) : squareRoot x = x.sqrt :=
  (isRoot_squareRoot x).unique ⟨Nat.sqrt_le' x, Nat.lt_succ_sqrt' x⟩

/-- **The integer root is the root rounded down**, in each of its cases. -/
theorem isRoot_integerRoot (x : ℕ) (hy : 0 < y) : IsRoot x y (integerRoot x y) := by
  unfold integerRoot
  split
  · rename_i hshort
    simp only [Bool.or_eq_true, decide_eq_true_eq] at hshort
    rcases hshort with hx | rfl
    · exact isRoot_self_of_lt_two hx hy
    · exact ⟨Nat.le_of_eq (Nat.pow_one x), by rw [Nat.pow_one]; exact x.lt_succ_self⟩
  · rename_i hshort
    simp only [Bool.or_eq_true, decide_eq_true_eq, not_or] at hshort
    split
    · rename_i htwo
      exact htwo ▸ isRoot_squareRoot x
    · split
      · rename_i hlength
        refine ⟨by rw [Nat.one_pow]; omega, (lt_two_pow_bitLength x).trans_le ?_⟩
        exact Nat.pow_le_pow_right (by decide) hlength
      · exact isRoot_newtonRoot x hy

/-- The root of a power is its base. -/
theorem integerRoot_pow (r : ℕ) (hy : 0 < y) : integerRoot (r ^ y) y = r := by
  have hroot : IsRoot (r ^ y) y r := ⟨le_rfl, Nat.pow_lt_pow_left r.lt_succ_self hy.ne'⟩
  exact (isRoot_integerRoot _ hy).unique hroot

/-- The power of the root does not exceed the radicand. -/
theorem integerRoot_pow_le (x : ℕ) (hy : 0 < y) : integerRoot x y ^ y ≤ x :=
  (isRoot_integerRoot x hy).pow_le

/-- **Root and remainder reconstruct the radicand.** -/
theorem integerRootRemainder_pow_add (x : ℕ) (hy : 0 < y) :
    (integerRootRemainder x y).1 ^ y + (integerRootRemainder x y).2 = x := by
  simp only [integerRootRemainder, power_eq]
  exact Nat.add_sub_of_le (integerRoot_pow_le x hy)

/-- Exactly the powers leave nothing over. -/
theorem integerRootRemainder_snd_eq_zero_iff (hy : 0 < y) :
    (integerRootRemainder x y).2 = 0 ↔ ∃ r, r ^ y = x := by
  have hadd := integerRootRemainder_pow_add x hy
  constructor
  · intro hzero
    exact ⟨(integerRootRemainder x y).1, by omega⟩
  · rintro ⟨r, rfl⟩
    have hroot : (integerRootRemainder (r ^ y) y).1 = r := integerRoot_pow r hy
    rw [hroot] at hadd
    omega

/-- **Root and remainder are exact.** The radicand lies between the powers of the root and of the
next number. The remainder is what the first power leaves of it, so it is less than the difference
of the two. On the way to the root of a positive number, the iteration never takes a step at zero,
where it would divide by zero. -/
theorem integerRoot_exact (x : ℕ) (hy : 1 ≤ y) :
    integerRoot x y ^ y ≤ x ∧ x < (integerRoot x y + 1) ^ y ∧
      (integerRootRemainder x y).1 = integerRoot x y ∧
      ((integerRootRemainder x y).2 : ℤ) = x - (integerRoot x y : ℤ) ^ y ∧
      0 ≤ (x : ℤ) - (integerRoot x y : ℤ) ^ y ∧
      (x : ℤ) - (integerRoot x y : ℤ) ^ y <
        ((integerRoot x y : ℤ) + 1) ^ y - (integerRoot x y : ℤ) ^ y ∧
      (0 < x → ∀ r ∈ newtonValues x y (newtonStart x y), 0 < r) := by
  obtain ⟨hle, hlt⟩ := isRoot_integerRoot x hy
  have hle' : (integerRoot x y : ℤ) ^ y ≤ x := by exact_mod_cast hle
  have hlt' : (x : ℤ) < ((integerRoot x y : ℤ) + 1) ^ y := by exact_mod_cast hlt
  have hrest : ((integerRootRemainder x y).2 : ℤ) = x - (integerRoot x y : ℤ) ^ y := by
    have hadd := integerRootRemainder_pow_add x hy
    have hadd' : (integerRoot x y : ℤ) ^ y + ((integerRootRemainder x y).2 : ℤ) = x := by
      exact_mod_cast hadd
    omega
  refine ⟨hle, hlt, rfl, hrest, by omega, by omega, fun hx => ?_⟩
  refine le_of_mem_newtonValues hy Nat.one_pos ?_ (Nat.two_pow_pos _)
  rw [Nat.one_pow]
  exact hx

/-- The cube root of 63 is three, and 36 is left. -/
theorem integerRoot_exact_sixty_three : 1 ≤ 3 ∧ integerRoot 63 3 = 3 ∧
    (integerRootRemainder 63 3).2 = 36 := by
  obtain ⟨hle, hlt, -, hrest, -⟩ := integerRoot_exact 63 (by decide : 1 ≤ 3)
  have hroot : integerRoot 63 3 = 3 :=
    (IsRoot.mk hle hlt).unique ⟨by decide, by decide⟩
  refine ⟨by decide, hroot, ?_⟩
  rw [hroot] at hrest
  have hcube : ((63 : ℕ) : ℤ) - ((3 : ℕ) : ℤ) ^ 3 = 36 := by decide
  omega

end ExactNumerics
