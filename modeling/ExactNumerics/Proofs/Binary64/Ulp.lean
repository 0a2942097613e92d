import ExactNumerics.Proofs.Binary64.Rounding
import ExactNumerics.Proofs.Binary64.Step

/-!
# The unit in the last place

The next magnitude is one spacing away, and a spacing is a power of two. All powers of two from one
unit up to the spacing of the last binade are doubles, so the subtraction of neighbours has an exact
result and nothing is left to round. This holds of any neighbours, be they in one binade, on both
sides of the end of one, subnormal, or zero and the least double.

At the greatest finite double the neighbour above is infinite. The one below is in the same binade,
so the distance to it is the spacing there, too, and the spacing is all that has to be compared of
two doubles.

## Main definitions

* `Binary64.finiteValues` — the values of the finite doubles
* `Binary64.UlpLaws x` — what the unit in the last place of `x` is

## Main results

* `Binary64.sub_eq_ofUnits` — a difference is rounded once
* `Binary64.ofUnits_two_pow` — spacings are not rounded
* `Binary64.ulp_eq` — the unit in the last place is the spacing
* `Binary64.ulp_lawful` — it is the exact distance to the next finite double
-/

namespace ExactNumerics

namespace Binary64

variable {x y : Binary64} {k m : ℕ}

/-! ### Signs -/

theorem not_isNaN_of_isFinite (h : x.isFinite) : ¬ x.isNaN := by
  rw [isFinite_iff_magnitude] at h
  rw [isNaN, decide_eq_true_eq]
  omega

theorem isInfinite_eq_false_of_isFinite (h : x.isFinite) : x.isInfinite = false := by
  rw [isFinite_iff_magnitude] at h
  rw [isInfinite, beq_eq_false_iff_ne]
  exact h.ne

@[simp]
theorem magnitude_neg (x : Binary64) : x.neg.magnitude = x.magnitude :=
  magnitude_ofMagnitude x.magnitude_lt

theorem isFinite_neg (h : x.isFinite) : x.neg.isFinite := by
  rwa [isFinite, magnitude_neg]

theorem units_neg (x : Binary64) : x.neg.units = -x.units := by
  rw [units, units, magnitude_neg, neg, negative_ofMagnitude x.magnitude_lt]
  cases x.negative <;> simp

@[simp]
theorem magnitude_abs (x : Binary64) : x.abs.magnitude = x.magnitude :=
  magnitude_ofMagnitude x.magnitude_lt

theorem ordinal_abs (x : Binary64) : x.abs.ordinal = x.magnitude := by
  rw [ordinal, magnitude_abs, abs, negative_ofMagnitude x.magnitude_lt, if_neg Bool.false_ne_true]

theorem isFinite_abs (h : x.isFinite) : x.abs.isFinite := by
  rwa [isFinite, magnitude_abs]

/-- The units of a double that is not negative are those of its ordinal. -/
theorem units_of_ordinal_eq (h : x.ordinal = m) : x.units = unitsOfMagnitude m := by
  have hm : x.magnitude = m := by rw [← natAbs_ordinal, h, Int.natAbs_natCast]
  rw [ordinal, hm] at h
  rw [units, hm]
  by_cases hneg : x.negative = true
  · rw [if_pos hneg] at h ⊢
    obtain rfl : m = 0 := by omega
    rw [unitsOfMagnitude_zero, Nat.cast_zero, neg_zero]
  · rw [if_neg hneg]

theorem toRat_one : one.toRat = 1 := by
  have hord : one.ordinal = (1022 * 2 ^ 52 + 2 ^ 52 : ℕ) := by decide
  have hunits : 2 ^ 52 * 2 ^ 1022 = unitsPerOne := by rw [← pow_add, unitsPerOne]
  rw [toRat_eq, units_of_ordinal_eq hord, unitsOfMagnitude_binade (by decide) (.inr le_rfl), hunits,
    Int.cast_natCast, div_self ratCast_unitsPerOne_pos.ne']

theorem toRat_abs (x : Binary64) : x.abs.toRat = |x.toRat| := by
  rw [abs_toRat, toRat_eq, units_of_ordinal_eq x.ordinal_abs, Int.cast_natCast]

/-! ### Exact differences -/

/-- **A difference is the rounded difference of units.** -/
theorem sub_eq_ofUnits (hx : x.isFinite) (hy : y.isFinite) (hne : x.units ≠ y.units) :
    sub x y = ofUnits (x.units - y.units) := by
  have hy' := isFinite_neg hy
  have hnan : (x.isNaN || y.neg.isNaN) = false := by
    simp [not_isNaN_of_isFinite hx, not_isNaN_of_isFinite hy']
  have hsum : x.units + y.neg.units = x.units - y.units := by rw [units_neg, sub_eq_add_neg]
  rw [sub, add, hnan, isInfinite_eq_false_of_isFinite hx, isInfinite_eq_false_of_isFinite hy', hsum]
  simp [sub_ne_zero.mpr hne]

/-- The powers of two up to the greatest spacing are units of finite magnitudes. -/
theorem exists_unitsOfMagnitude_eq_two_pow (hk : k ≤ 2045) :
    ∃ m < infinityOrdinal, unitsOfMagnitude m = 2 ^ k := by
  by_cases hsmall : k ≤ 52
  · have hle : 2 ^ k ≤ 2 ^ 53 := Nat.pow_le_pow_right (by decide) (by omega)
    refine ⟨0 * 2 ^ 52 + 2 ^ k, ?_, ?_⟩
    · rw [infinityOrdinal]
      omega
    · rw [unitsOfMagnitude_binade hle (.inl rfl), pow_zero, mul_one]
  · refine ⟨(k - 52) * 2 ^ 52 + 2 ^ 52, ?_, ?_⟩
    · rw [infinityOrdinal]
      omega
    · rw [unitsOfMagnitude_binade (by decide) (.inr le_rfl), ← pow_add]
      congr 1
      omega

/-- **Powers of two up to the greatest spacing are not rounded.** -/
theorem ofUnits_two_pow (hk : k ≤ 2045) :
    (ofUnits (2 ^ k : ℕ)).isFinite ∧ (ofUnits (2 ^ k : ℕ)).units = (2 ^ k : ℕ) := by
  obtain ⟨m, hm, hunits⟩ := exists_unitsOfMagnitude_eq_two_pow hk
  have hlt : m < 2 ^ 63 := hm.trans infinityOrdinal_lt
  have hround : ofUnits (2 ^ k : ℕ) = ofMagnitude false m := by
    rw [ofUnits, Int.natAbs_natCast, ← hunits, roundUnits, roundMagnitude_unitsOfMagnitude hm,
      decide_eq_false (by omega)]
  rw [hround]
  constructor
  · rwa [isFinite_iff_magnitude, magnitude_ofMagnitude hlt]
  · rw [units, negative_ofMagnitude hlt, magnitude_ofMagnitude hlt, if_neg Bool.false_ne_true,
      hunits]

/-! ### The spacing -/

theorem spacing_le (h : m < infinityOrdinal) : spacing m ≤ 2045 := by
  rw [infinityOrdinal] at h
  rw [spacing]
  omega

theorem spacing_mono {m' : ℕ} (h : m ≤ m') : spacing m ≤ spacing m' := by
  rw [spacing, spacing]
  omega

theorem eq_greatest_iff : x.abs = greatest ↔ x.magnitude = infinityOrdinal - 1 := by
  have hlt : infinityOrdinal - 1 < 2 ^ 63 := by decide
  constructor
  · intro h
    rw [← magnitude_abs, h, greatest, magnitude_ofMagnitude hlt]
  · intro h
    rw [abs, h, greatest]

/-- Below the greatest finite double, the next one above is finite, and a spacing away. -/
theorem next_abs (hx : x.isFinite) (hne : x.abs ≠ greatest) :
    x.abs.next.isFinite ∧ x.abs.next.ordinal = x.abs.ordinal + 1 ∧
      x.abs.next.units - x.abs.units = (2 ^ spacing x.magnitude : ℕ) := by
  have hlt := isFinite_iff_magnitude.mp hx
  rw [Ne, eq_greatest_iff] at hne
  have hord : x.abs.next.ordinal = (x.magnitude + 1 : ℕ) := by
    have h : x.abs.ordinal < infinityOrdinal := by
      rw [ordinal_abs]
      omega
    rw [ordinal_next (not_isNaN_of_isFinite (isFinite_abs hx)) h, ordinal_abs]
    rfl
  refine ⟨?_, ?_, ?_⟩
  · rw [isFinite_iff_ordinal, hord]
    omega
  · rw [hord, ordinal_abs]
    rfl
  · rw [units_of_ordinal_eq hord, units_of_ordinal_eq x.ordinal_abs, unitsOfMagnitude_succ,
      Nat.cast_add, add_sub_cancel_left]

/-- At the greatest finite double, the one below is finite, and as far away. -/
theorem previous_abs (hx : x.isFinite) (hmax : x.abs = greatest) :
    x.abs.previous.isFinite ∧ x.abs.previous.ordinal = x.abs.ordinal - 1 ∧
      x.abs.units - x.abs.previous.units = (2 ^ spacing x.magnitude : ℕ) := by
  rw [eq_greatest_iff] at hmax
  have hsucc : infinityOrdinal - 1 = infinityOrdinal - 2 + 1 := by decide
  have hspacing : spacing (infinityOrdinal - 2 + 1) = spacing (infinityOrdinal - 2) := by decide
  have hord : x.abs.previous.ordinal = (infinityOrdinal - 2 : ℕ) := by
    rw [ordinal_previous (not_isNaN_of_isFinite (isFinite_abs hx)), ordinal_abs, hmax, hsucc]
    · omega
    · rw [ordinal_abs]
      omega
  refine ⟨?_, ?_, ?_⟩
  · rw [isFinite_iff_ordinal, hord]
    omega
  · rw [hord, ordinal_abs, hmax, hsucc]
    omega
  · rw [units_of_ordinal_eq hord, units_of_ordinal_eq x.ordinal_abs, hmax, hsucc,
      unitsOfMagnitude_succ, hspacing, Nat.cast_add, add_sub_cancel_left]

/-! ### The unit in the last place -/

/-- Doubles whose units are a power of two apart are subtracted without rounding. -/
theorem sub_eq_ofUnits_two_pow (hx : x.isFinite) (hy : y.isFinite)
    (h : x.units - y.units = (2 ^ k : ℕ)) : sub x y = ofUnits (2 ^ k : ℕ) := by
  have hne : x.units - y.units ≠ 0 := by
    rw [h]
    exact Nat.cast_ne_zero.mpr (Nat.two_pow_pos k).ne'
  rw [sub_eq_ofUnits hx hy (sub_ne_zero.mp hne), h]

/-- **The unit in the last place is the spacing.** -/
theorem ulp_eq (hx : x.isFinite) : x.ulp = ofUnits (2 ^ spacing x.magnitude : ℕ) := by
  have hx' := isFinite_abs hx
  have hinf : ¬ x.abs.isInfinite = true := by
    rw [isInfinite_eq_false_of_isFinite hx']
    exact Bool.false_ne_true
  simp only [ulp]
  rw [if_neg (not_isNaN_of_isFinite hx'), if_neg hinf]
  split
  · obtain ⟨hfin, -, hunits⟩ := previous_abs hx ‹_›
    exact sub_eq_ofUnits_two_pow hx' hfin hunits
  · obtain ⟨hfin, -, hunits⟩ := next_abs hx ‹_›
    exact sub_eq_ofUnits_two_pow hfin hx' hunits

theorem spacing_magnitude_le (hx : x.isFinite) : spacing x.magnitude ≤ 2045 :=
  spacing_le (isFinite_iff_magnitude.mp hx)

theorem isFinite_ulp (hx : x.isFinite) : x.ulp.isFinite := by
  rw [ulp_eq hx]
  exact (ofUnits_two_pow (spacing_magnitude_le hx)).1

theorem toRat_ulp (hx : x.isFinite) : x.ulp.toRat = 2 ^ spacing x.magnitude / unitsPerOne := by
  rw [toRat_eq, ulp_eq hx, (ofUnits_two_pow (spacing_magnitude_le hx)).2, Int.cast_natCast,
    Nat.cast_pow, Nat.cast_ofNat]

theorem toRat_ulp_pos (hx : x.isFinite) : 0 < x.ulp.toRat := by
  rw [toRat_ulp hx]
  exact div_pos (pow_pos two_pos _) ratCast_unitsPerOne_pos

theorem toRat_ulp_eq_zpow (hx : x.isFinite) :
    x.ulp.toRat = 2 ^ ((spacing x.magnitude : ℤ) - 1074) := by
  have hexp : (1074 : ℤ) = ((1074 : ℕ) : ℤ) := rfl
  rw [toRat_ulp hx, ratCast_unitsPerOne, hexp, zpow_sub₀ two_ne_zero, zpow_natCast, zpow_natCast]

/-- Doubles whose units are a spacing of `x` apart have values a unit in the last place apart. -/
theorem toRat_sub_toRat (hx : x.isFinite) {z : Binary64}
    (h : y.units - z.units = (2 ^ spacing x.magnitude : ℕ)) :
    y.toRat - z.toRat = x.ulp.toRat := by
  rw [toRat_ulp hx, toRat_eq, toRat_eq, ← sub_div, ← Int.cast_sub, h, Int.cast_natCast,
    Nat.cast_pow, Nat.cast_ofNat]

/-- The values of the finite doubles. -/
def finiteValues : Set ℚ := {v | ∃ z : Binary64, z.isFinite ∧ z.toRat = v}

theorem toRat_le_iff : x.toRat ≤ y.toRat ↔ x.ordinal ≤ y.ordinal := by
  rw [← not_lt, toRat_lt_iff, not_lt]

theorem abs_toRat_le_iff : |x.toRat| ≤ |y.toRat| ↔ x.magnitude ≤ y.magnitude := by
  rw [← toRat_abs, ← toRat_abs, toRat_le_iff, ordinal_abs, ordinal_abs, Nat.cast_le]

/-- What the unit in the last place of a double is. -/
structure UlpLaws (x : Binary64) : Prop where
  /-- It is a finite double. -/
  isFinite : x.ulp.isFinite
  /-- The difference to the next double above is not rounded. -/
  sub_next : x.abs ≠ greatest → (sub x.abs.next x.abs).toRat = x.abs.next.toRat - x.abs.toRat
  /-- The difference to the one below the greatest is not rounded. -/
  sub_previous : x.abs = greatest →
    (sub x.abs x.abs.previous).toRat = x.abs.toRat - x.abs.previous.toRat
  /-- It is the distance to the least value of a finite double above. -/
  isLeast : x.abs ≠ greatest → IsLeast (finiteValues ∩ Set.Ioi |x.toRat|) (|x.toRat| + x.ulp.toRat)
  /-- At the greatest it is the distance to the greatest value below. -/
  isGreatest : x.abs = greatest →
    IsGreatest (finiteValues ∩ Set.Iio |x.toRat|) (|x.toRat| - x.ulp.toRat)
  /-- It is a power of two. -/
  eq_two_pow : ∃ k : ℤ, -1074 ≤ k ∧ k ≤ 971 ∧ x.ulp.toRat = 2 ^ k
  /-- It does not get smaller as the absolute value grows. -/
  le : ∀ y : Binary64, y.isFinite → |x.toRat| ≤ |y.toRat| → x.ulp.toRat ≤ y.ulp.toRat

/-- **The unit in the last place is the exact distance** between neighbours. -/
theorem ulp_lawful (hx : x.isFinite) : UlpLaws x where
  isFinite := isFinite_ulp hx
  sub_next := by
    intro hne
    obtain ⟨hfin, -, hunits⟩ := next_abs hx hne
    rw [sub_eq_ofUnits_two_pow hfin (isFinite_abs hx) hunits, ← ulp_eq hx,
      toRat_sub_toRat hx hunits]
  sub_previous := by
    intro hmax
    obtain ⟨hfin, -, hunits⟩ := previous_abs hx hmax
    rw [sub_eq_ofUnits_two_pow (isFinite_abs hx) hfin hunits, ← ulp_eq hx,
      toRat_sub_toRat hx hunits]
  isLeast := by
    intro hne
    obtain ⟨hfin, hord, hunits⟩ := next_abs hx hne
    rw [← toRat_abs, ← toRat_sub_toRat hx hunits, add_sub_cancel]
    constructor
    · refine ⟨⟨x.abs.next, hfin, rfl⟩, ?_⟩
      rw [Set.mem_Ioi, toRat_lt_iff]
      omega
    · rintro _ ⟨⟨z, -, rfl⟩, hlt⟩
      rw [Set.mem_Ioi, toRat_lt_iff] at hlt
      rw [toRat_le_iff]
      omega
  isGreatest := by
    intro hmax
    obtain ⟨hfin, hord, hunits⟩ := previous_abs hx hmax
    rw [← toRat_abs, ← toRat_sub_toRat hx hunits, sub_sub_cancel]
    constructor
    · refine ⟨⟨x.abs.previous, hfin, rfl⟩, ?_⟩
      rw [Set.mem_Iio, toRat_lt_iff]
      omega
    · rintro _ ⟨⟨z, -, rfl⟩, hlt⟩
      rw [Set.mem_Iio, toRat_lt_iff] at hlt
      rw [toRat_le_iff]
      omega
  eq_two_pow := by
    have hle := spacing_magnitude_le hx
    exact ⟨spacing x.magnitude - 1074, by omega, by omega, toRat_ulp_eq_zpow hx⟩
  le := by
    intro y hy hle
    rw [abs_toRat_le_iff] at hle
    rw [toRat_ulp hx, toRat_ulp hy, div_le_div_iff_of_pos_right ratCast_unitsPerOne_pos]
    exact pow_le_pow_right₀ one_le_two (spacing_mono hle)

/-- The laws at the greatest finite double. -/
theorem ulp_lawful_greatest : greatest.isFinite ∧ UlpLaws greatest :=
  ⟨by decide, ulp_lawful (by decide)⟩

example : (zero true).ulp.bits = 1 ∧ greatest.ulp.bits = 0x7CA0000000000000 := by decide +kernel

end Binary64

end ExactNumerics
