import ExactNumerics.Proofs.Binary64.Ulp
import Mathlib.Data.Nat.Size

/-!
# Rounding and grids of powers of two

The doubles of one binade are the multiples of a power of two, its spacing, so a number of units
that is to be rounded can be looked at on the grids of the multiples of powers of two. Three things
are all that is needed of rounding for exact sums. The double is off by no more than half of its
own spacing. A number on a grid is rounded to a double on that grid, since if the spacing is finer
than the grid, half of it is too little to leave the number. And the double lies on a grid that is
more than twice as wide as the double is off: on the grid of its spacing or, after a tie, on the one
that is twice as wide, because a tie goes to an even magnitude.

A number of at most 53 bits on a grid is a double itself. This is how the results of additions are
shown not to be rounded.

## Main definitions

* `Binary64.BelowGrid a b` — `b` lies on a grid that is more than twice as wide as `a` is large
* `Binary64.IsExact u` — so many units are a finite double

## Main results

* `Binary64.two_mul_natAbs_units_ofUnits_sub_le` — half a spacing
* `Binary64.dvd_units_ofUnits` — rounding on a grid
* `Binary64.belowGrid_units_ofUnits` — what rounding leaves over is below the grid of the double
* `Binary64.isExact_of_dvd` — numbers of 53 bits on a grid
* `Binary64.units_add`, `Binary64.units_sub_of_isExact` — sums and differences are rounded once
-/

namespace ExactNumerics

namespace Binary64

variable {x y : Binary64} {u a b c : ℤ} {k m n : ℕ}

/-! ### The nearest magnitude on grids -/

/-- The units of a magnitude lie on the grid of its spacing. -/
theorem two_pow_spacing_dvd (m : ℕ) : 2 ^ spacing m ∣ unitsOfMagnitude m := Dvd.intro_left _ rfl

/-- They count fewer than `2 ^ 53` spacings. -/
theorem unitsOfMagnitude_add_le (m : ℕ) :
    unitsOfMagnitude m + 2 ^ spacing m ≤ 2 ^ 53 * 2 ^ spacing m := by
  have hlt : m - spacing m * 2 ^ 52 + 1 ≤ 2 ^ 53 := by
    simp only [spacing]
    omega
  calc unitsOfMagnitude m + 2 ^ spacing m = (m - spacing m * 2 ^ 52 + 1) * 2 ^ spacing m := by
        rw [unitsOfMagnitude, Nat.succ_mul]
    _ ≤ 2 ^ 53 * 2 ^ spacing m := Nat.mul_le_mul_right _ hlt

/-- If a grid has room for them with 53 bits, their spacing is no wider. -/
theorem spacing_le_of_lt (h : unitsOfMagnitude m < 2 ^ 53 * 2 ^ k) : spacing m ≤ k := by
  by_contra hlt
  have hnormal : 2 ^ 52 ≤ m - spacing m * 2 ^ 52 := by
    simp only [spacing] at hlt ⊢
    omega
  have hle : 2 ^ 52 * 2 ^ (k + 1) ≤ unitsOfMagnitude m :=
    Nat.mul_le_mul hnormal (Nat.pow_le_pow_right (by decide) (by omega))
  rw [pow_succ] at hle
  omega

/-- The units of an even magnitude lie on the grid that is twice as wide. -/
theorem two_pow_succ_spacing_dvd (h : m % 2 = 0) : 2 ^ (spacing m + 1) ∣ unitsOfMagnitude m := by
  obtain ⟨s, hs⟩ : 2 ∣ m - spacing m * 2 ^ 52 := by omega
  refine ⟨s, ?_⟩
  rw [unitsOfMagnitude, hs]
  ring

/-- **Numbers of 53 bits on a grid are units of a magnitude.** The induction is on the width of the
grid: a number with a bit to spare lies on the next finer one. -/
theorem exists_unitsOfMagnitude_eq (hk : 2 ^ k ∣ n) (hle : n ≤ 2 ^ 53 * 2 ^ k) :
    ∃ m, unitsOfMagnitude m = n := by
  induction k with
  | zero => exact ⟨0 * 2 ^ 52 + n, by rw [unitsOfMagnitude_binade (by omega) (.inl rfl)]; simp⟩
  | succ k ih =>
    obtain ⟨s, rfl⟩ := hk
    have hs : s ≤ 2 ^ 53 := by
      refine Nat.le_of_mul_le_mul_left ?_ (Nat.two_pow_pos (k + 1))
      rwa [mul_comm (2 ^ (k + 1)) (2 ^ 53)]
    by_cases hnormal : 2 ^ 52 ≤ s
    · exact ⟨(k + 1) * 2 ^ 52 + s, by rw [unitsOfMagnitude_binade hs (.inr hnormal), mul_comm]⟩
    · have hsplit : 2 ^ (k + 1) * s = 2 * s * 2 ^ k := by rw [pow_succ]; ring
      rw [hsplit] at ih ⊢
      exact ih (Dvd.intro_left _ rfl) (Nat.mul_le_mul_right _ (by omega))

/-- The distance between the units of a magnitude and a number of units. -/
theorem offset_one (n m : ℕ) : offset n 1 m = ((unitsOfMagnitude m : ℤ) - n).natAbs := by
  rw [offset, one_mul]

namespace IsNearestMagnitude

/-- The number lies between the nearest magnitude and a neighbour, no more than a spacing away. -/
theorem exists_neighbour (h : IsNearestMagnitude n 1 m) :
    ∃ m', m' ≠ m ∧ offset n 1 m + offset n 1 m' ≤ 2 ^ spacing m := by
  rcases Nat.lt_or_ge n (unitsOfMagnitude m) with hlt | hge
  · -- a magnitude with units above the number is not zero
    obtain ⟨m', rfl⟩ : ∃ m', m = m' + 1 := by
      refine Nat.exists_eq_add_one_of_ne_zero ?_
      rintro rfl
      rw [unitsOfMagnitude_zero] at hlt
      omega
    have hle := h.le m'
    have hwider : 2 ^ spacing m' ≤ 2 ^ spacing (m' + 1) :=
      Nat.pow_le_pow_right (by decide) (spacing_mono (Nat.le_succ m'))
    refine ⟨m', by omega, ?_⟩
    have hpos := Nat.two_pow_pos (spacing m')
    rw [offset_one, offset_one, unitsOfMagnitude_succ] at hle ⊢
    rw [unitsOfMagnitude_succ] at hlt
    generalize 2 ^ spacing m' = p at *
    generalize 2 ^ spacing (m' + 1) = q at *
    omega
  · have hpos := Nat.two_pow_pos (spacing m)
    have hle := h.le (m + 1)
    refine ⟨m + 1, by omega, ?_⟩
    rw [offset_one, offset_one, unitsOfMagnitude_succ] at hle ⊢
    generalize 2 ^ spacing m = p at *
    omega

/-- The nearest magnitude is off by half of its spacing at most. -/
theorem two_mul_offset_le (h : IsNearestMagnitude n 1 m) : 2 * offset n 1 m ≤ 2 ^ spacing m := by
  obtain ⟨m', -, hle⟩ := h.exists_neighbour
  have := h.le m'
  omega

/-- At half a spacing there is a tie with the neighbour. -/
theorem even_of_two_mul_offset_eq (h : IsNearestMagnitude n 1 m)
    (htie : 2 * offset n 1 m = 2 ^ spacing m) : m % 2 = 0 := by
  obtain ⟨m', hne, hle⟩ := h.exists_neighbour
  have := h.le m'
  exact h.even m' hne (by omega)

/-- **On a grid the nearest magnitude is on that grid.** -/
theorem dvd (h : IsNearestMagnitude n 1 m) (hk : 2 ^ k ∣ n) : 2 ^ k ∣ unitsOfMagnitude m := by
  rcases Nat.lt_or_ge (spacing m) k with hlt | hge
  · -- both are on the grid of the spacing, and nearer to each other than that
    have hn : 2 ^ spacing m ∣ n := (pow_dvd_pow 2 hlt.le).trans hk
    have hdvd : 2 ^ spacing m ∣ offset n 1 m := by
      rw [offset_one, ← Int.natCast_dvd]
      exact dvd_sub (Int.natCast_dvd_natCast.mpr (two_pow_spacing_dvd m))
        (Int.natCast_dvd_natCast.mpr hn)
    have hle := h.two_mul_offset_le
    have hpos := Nat.two_pow_pos (spacing m)
    have hzero : offset n 1 m = 0 := Nat.eq_zero_of_dvd_of_lt hdvd (by omega)
    rw [offset_one] at hzero
    have heq : unitsOfMagnitude m = n := by omega
    rwa [heq]
  · exact (pow_dvd_pow 2 hge).trans (two_pow_spacing_dvd m)

/-- Numbers of 53 bits are not rounded beyond them. -/
theorem unitsOfMagnitude_lt (h : IsNearestMagnitude n 1 m) (hn : n + 2 ^ k ≤ 2 ^ 53 * 2 ^ k) :
    unitsOfMagnitude m < 2 ^ 53 * 2 ^ k := by
  have hlast : (2 ^ 53 - 1) * 2 ^ k + 2 ^ k = 2 ^ 53 * 2 ^ k := by omega
  obtain ⟨m', hm'⟩ : ∃ m', unitsOfMagnitude m' = (2 ^ 53 - 1) * 2 ^ k :=
    exists_unitsOfMagnitude_eq (Dvd.intro_left _ rfl) (by omega)
  have hpos := Nat.two_pow_pos k
  have hle := h.le m'
  rw [offset_one, offset_one, hm'] at hle
  generalize 2 ^ k = p at *
  omega

/-- **The nearest magnitude is on a grid that is more than twice as wide as it is off.** -/
theorem exists_two_pow_dvd (h : IsNearestMagnitude n 1 m) :
    ∃ k, 2 * offset n 1 m < 2 ^ k ∧ 2 ^ k ∣ unitsOfMagnitude m := by
  rcases h.two_mul_offset_le.lt_or_eq with hlt | htie
  · exact ⟨spacing m, hlt, two_pow_spacing_dvd m⟩
  · refine ⟨spacing m + 1, ?_, two_pow_succ_spacing_dvd (h.even_of_two_mul_offset_eq htie)⟩
    rw [htie]
    exact Nat.pow_lt_pow_succ (by decide)

end IsNearestMagnitude

/-! ### Rounding a number of units -/

theorem roundsTo_ofUnits (u : ℤ) : RoundsTo (u / unitsPerOne) (ofUnits u) := by
  have hsign : decide (u < 0) = decide ((u : ℚ) / unitsPerOne < 0) := by
    rw [decide_eq_decide, div_lt_iff₀ ratCast_unitsPerOne_pos, zero_mul, Int.cast_lt_zero]
  rw [ofUnits, hsign]
  refine roundsTo_roundUnits one_pos ?_
  rw [abs_div, abs_of_pos ratCast_unitsPerOne_pos, div_mul_cancel₀ _ ratCast_unitsPerOne_pos.ne',
    Nat.cast_one, div_one, Nat.cast_natAbs, Int.cast_abs]

theorem ofUnits_zero : ofUnits 0 = zero false := by decide +kernel

theorem magnitude_zero (s : Bool) : (zero s).magnitude = 0 := magnitude_ofMagnitude (by decide)

theorem units_eq_zero_of_magnitude (h : x.magnitude = 0) : x.units = 0 := by
  have hzero := natAbs_units x
  rw [h, unitsOfMagnitude_zero] at hzero
  exact Int.natAbs_eq_zero.mp hzero

theorem units_zero (s : Bool) : (zero s).units = 0 := units_eq_zero_of_magnitude (magnitude_zero s)

theorem negative_ofUnits (u : ℤ) : (ofUnits u).negative = decide (u < 0) :=
  negative_roundUnits _ _ _

/-- Rounding keeps the sign. -/
theorem units_ofUnits_sign (u : ℤ) :
    (0 ≤ u → 0 ≤ (ofUnits u).units) ∧ (u ≤ 0 → (ofUnits u).units ≤ 0) := by
  rcases lt_trichotomy u 0 with hu | rfl | hu
  · rw [units, negative_ofUnits, if_pos (decide_eq_true hu)]
    omega
  · rw [ofUnits_zero, units_zero]
    omega
  · rw [units, negative_ofUnits, if_neg (by simpa using hu.le)]
    omega

theorem isNearestMagnitude_ofUnits (h : (ofUnits u).isFinite) :
    IsNearestMagnitude u.natAbs 1 (ofUnits u).magnitude := by
  rw [ofUnits, isFinite_roundUnits_iff] at h
  rw [ofUnits, magnitude_roundUnits, roundMagnitude_eq, if_neg (not_le.mpr h)]
  exact isNearestMagnitude_unboundedMagnitude _ one_pos

/-- The units of a double that has the sign of a number are as far off as its magnitude is. -/
theorem natAbs_units_sub (h : x.negative = decide (u < 0)) :
    (x.units - u).natAbs = offset u.natAbs 1 x.magnitude := by
  rw [offset_one, units, h]
  by_cases hu : u < 0
  · rw [if_pos (decide_eq_true hu)]
    omega
  · rw [if_neg (by simpa using hu)]
    omega

/-- The units of other doubles are off at least as far. -/
theorem offset_le_natAbs_units_sub (u : ℤ) (y : Binary64) :
    offset u.natAbs 1 y.magnitude ≤ (y.units - u).natAbs := by
  rw [offset_one, units]
  split <;> omega

section OfUnits

variable (hfin : (ofUnits u).isFinite)

include hfin

/-- No double is nearer. -/
theorem natAbs_units_ofUnits_sub_le (y : Binary64) :
    ((ofUnits u).units - u).natAbs ≤ (y.units - u).natAbs := by
  rw [natAbs_units_sub (negative_ofUnits u)]
  exact ((isNearestMagnitude_ofUnits hfin).le y.magnitude).trans (offset_le_natAbs_units_sub u y)

/-- **A rounded number is off by half a spacing at most.** -/
theorem two_mul_natAbs_units_ofUnits_sub_le :
    2 * ((ofUnits u).units - u).natAbs ≤ 2 ^ spacing (ofUnits u).magnitude := by
  rw [natAbs_units_sub (negative_ofUnits u)]
  exact (isNearestMagnitude_ofUnits hfin).two_mul_offset_le

end OfUnits

theorem natCast_dvd_units_iff (d : ℕ) (x : Binary64) :
    (d : ℤ) ∣ x.units ↔ d ∣ unitsOfMagnitude x.magnitude := by
  rw [Int.natCast_dvd, natAbs_units]

/-- **A number on a grid is rounded on that grid.** -/
theorem dvd_units_ofUnits (hfin : (ofUnits u).isFinite) (h : ((2 ^ k : ℕ) : ℤ) ∣ u) :
    ((2 ^ k : ℕ) : ℤ) ∣ (ofUnits u).units := by
  rw [natCast_dvd_units_iff]
  exact (isNearestMagnitude_ofUnits hfin).dvd (Int.natCast_dvd.mp h)

/-- The units of a double lie on the grid of its spacing. -/
theorem two_pow_spacing_dvd_units (x : Binary64) :
    ((2 ^ spacing x.magnitude : ℕ) : ℤ) ∣ x.units :=
  (natCast_dvd_units_iff _ x).mpr (two_pow_spacing_dvd _)

/-! ### Numbers below a grid -/

/-- The width of the narrowest grid that is more than twice as wide as `a` is large. -/
def gridAbove (a : ℤ) : ℕ := 2 ^ (2 * a.natAbs).size

/-- The number `b` lies on a grid that is more than twice as wide as `a` is large. -/
def BelowGrid (a b : ℤ) : Prop := (gridAbove a : ℤ) ∣ b

theorem two_mul_natAbs_lt_gridAbove (a : ℤ) : 2 * a.natAbs < gridAbove a := Nat.lt_size_self _

theorem gridAbove_dvd (h : 2 * a.natAbs < 2 ^ k) : gridAbove a ∣ 2 ^ k :=
  pow_dvd_pow 2 (Nat.size_le.mpr h)

namespace BelowGrid

theorem of_dvd (h : 2 * a.natAbs < 2 ^ k) (hk : ((2 ^ k : ℕ) : ℤ) ∣ b) : BelowGrid a b :=
  (Int.natCast_dvd_natCast.mpr (gridAbove_dvd h)).trans hk

theorem mono (h : BelowGrid a c) (hle : b.natAbs ≤ a.natAbs) : BelowGrid b c :=
  of_dvd ((Nat.mul_le_mul_left 2 hle).trans_lt (two_mul_natAbs_lt_gridAbove a)) h

theorem add_right (hb : BelowGrid a b) (hc : BelowGrid a c) : BelowGrid a (b + c) :=
  Int.dvd_add hb hc

/-- A number on the grid is zero or more than twice as large. -/
theorem two_mul_natAbs_lt (h : BelowGrid a b) (hb : b ≠ 0) : 2 * a.natAbs < b.natAbs :=
  (two_mul_natAbs_lt_gridAbove a).trans_le
    (Nat.le_of_dvd (Int.natAbs_pos.mpr hb) (Int.natCast_dvd.mp h))

theorem natAbs_le_natAbs_add (h : BelowGrid a b) : a.natAbs ≤ (a + b).natAbs := by
  by_cases hb : b = 0
  · rw [hb, add_zero]
  · have := h.two_mul_natAbs_lt hb
    omega

/-- **Sums stay below a grid.** If `a` is below the grids of `b` and `c`, and `b` is below the grid
of `c`, then `b` keeps a distance from the width of its grid that is enough for `a`. -/
theorem add (hab : BelowGrid a b) (hac : BelowGrid a c) (hbc : BelowGrid b c) :
    BelowGrid (a + b) c := by
  by_cases hb : b = 0
  · rwa [hb, add_zero]
  · have hb' : (b.natAbs : ℕ) ≠ 0 := Int.natAbs_ne_zero.mpr hb
    have hdvd := Int.natCast_dvd.mp hab
    have ha := two_mul_natAbs_lt_gridAbove a
    have hlt := two_mul_natAbs_lt_gridAbove b
    have hle : gridAbove a ≤ b.natAbs := Nat.le_of_dvd (by omega) hdvd
    -- both widths are powers of two, so what is left of the wider one is a multiple of the other
    have hle' : gridAbove a ≤ gridAbove b := by omega
    have hgrid : gridAbove a ∣ gridAbove b :=
      pow_dvd_pow 2 ((Nat.pow_le_pow_iff_right (by decide)).mp hle')
    have hroom : gridAbove a ≤ gridAbove b - 2 * b.natAbs :=
      Nat.le_of_dvd (Nat.sub_pos_of_lt hlt) (Nat.dvd_sub hgrid (hdvd.mul_left 2))
    refine of_dvd (k := (2 * b.natAbs).size) ?_ hbc
    rw [← gridAbove]
    omega

end BelowGrid

theorem belowGrid_zero (b : ℤ) : BelowGrid 0 b := .of_dvd (k := 0) (by decide) (one_dvd b)

/-- **What rounding leaves over is below the grid of the double.** -/
theorem belowGrid_units_ofUnits (hfin : (ofUnits u).isFinite) :
    BelowGrid ((ofUnits u).units - u) (ofUnits u).units := by
  obtain ⟨k, hlt, hdvd⟩ := (isNearestMagnitude_ofUnits hfin).exists_two_pow_dvd
  rw [← natAbs_units_sub (negative_ofUnits u)] at hlt
  exact .of_dvd hlt ((natCast_dvd_units_iff _ _).mpr hdvd)

/-! ### Numbers that are not rounded -/

/-- The units of the greatest finite double. -/
def greatestUnits : ℕ := unitsOfMagnitude (infinityOrdinal - 1)

/-- The spacing of the greatest doubles, and half of it. -/
theorem two_pow_2045 : 2 ^ 2045 = 2 * 2 ^ 2044 := by rw [← pow_succ']

/-- One more spacing, and the binades would be at an end. -/
theorem greatestUnits_add : greatestUnits + 2 ^ 2045 = 2 ^ 54 * 2 ^ 2044 := by
  have hgoal : greatestUnits + 2 ^ 2045 = 2 ^ 52 * 2 ^ 2046 := by
    rw [greatestUnits, ← unitsOfMagnitude_pred_infinityOrdinal, unitsOfMagnitude_infinityOrdinal]
  rw [hgoal, ← pow_add, ← pow_add]

theorem natAbs_units_le (h : x.isFinite) : x.units.natAbs ≤ greatestUnits := by
  rw [isFinite_iff_magnitude] at h
  rw [natAbs_units]
  exact strictMono_unitsOfMagnitude.monotone (by omega)

/-- The other doubles are smaller by a spacing at least. -/
theorem natAbs_units_add_le (h : x.units.natAbs < greatestUnits) :
    x.units.natAbs + 2 ^ 2045 ≤ greatestUnits := by
  have hlast := unitsOfMagnitude_succ (infinityOrdinal - 2)
  have hspacing : spacing (infinityOrdinal - 2) = 2045 := by decide
  have hpred : infinityOrdinal - 2 + 1 = infinityOrdinal - 1 := by decide
  rw [hpred, hspacing] at hlast
  rw [natAbs_units, greatestUnits, strictMono_unitsOfMagnitude.lt_iff_lt] at h
  have hle : x.magnitude ≤ infinityOrdinal - 2 := by omega
  rw [natAbs_units, greatestUnits, hlast, Nat.add_le_add_iff_right]
  exact strictMono_unitsOfMagnitude.monotone hle

/-- **Numbers are rounded to infinity** from half a spacing above the greatest finite double on. -/
theorem isFinite_ofUnits_iff : (ofUnits u).isFinite ↔ u.natAbs < greatestUnits + 2 ^ 2044 := by
  have hnearest := isNearestMagnitude_unboundedMagnitude u.natAbs one_pos
  rw [ofUnits, isFinite_roundUnits_iff, ← not_le, hnearest.infinityOrdinal_le_iff one_pos,
    unitsOfMagnitude_pred_infinityOrdinal, two_pow_2045, greatestUnits]
  omega

namespace BelowGrid

/-- A large number is only below wide grids. -/
theorem two_pow_dvd (h : BelowGrid a b) (ha : 2 ^ k ≤ a.natAbs) : ((2 ^ (k + 2) : ℕ) : ℤ) ∣ b := by
  refine (Int.natCast_dvd_natCast.mpr (pow_dvd_pow 2 ?_)).trans h
  refine Nat.lt_size.mpr ?_
  rw [pow_succ]
  omega

/-- Finite doubles leave room for what is below their grid. -/
theorem natAbs_add_lt (h : BelowGrid a b) (ha : a.natAbs < greatestUnits + 2 ^ 2044)
    (hb : b.natAbs ≤ greatestUnits) : (a + b).natAbs < greatestUnits + 2 ^ 2044 := by
  by_cases hzero : b = 0
  · rwa [hzero, add_zero]
  rcases Nat.lt_or_ge a.natAbs (2 ^ 2044) with hsmall | hlarge
  · omega
  · -- then `a` is below a grid that is wider than the last binade has room for above `b`
    have hend := greatestUnits_add
    have hgrid := two_mul_natAbs_lt_gridAbove a
    have hlt : b.natAbs < 2 ^ 54 * 2 ^ 2044 := by omega
    have hle : gridAbove a ≤ b.natAbs :=
      Nat.le_of_dvd (Int.natAbs_pos.mpr hzero) (Int.natCast_dvd.mp h)
    have hend' : gridAbove a ∣ 2 ^ 54 * 2 ^ 2044 := by
      rw [← pow_add]
      refine gridAbove_dvd ?_
      rw [pow_add]
      omega
    have hroom : gridAbove a ≤ 2 ^ 54 * 2 ^ 2044 - b.natAbs :=
      Nat.le_of_dvd (Nat.sub_pos_of_lt hlt) (Nat.dvd_sub hend' (Int.natCast_dvd.mp h))
    omega

end BelowGrid

/-- So many units are a finite double. -/
def IsExact (u : ℤ) : Prop := ∃ x : Binary64, x.isFinite ∧ x.units = u

/-- **Numbers of 53 bits on a grid** are finite doubles, unless they are too large. -/
theorem isExact_of_dvd (hk : ((2 ^ k : ℕ) : ℤ) ∣ u) (hle : u.natAbs ≤ 2 ^ 53 * 2 ^ k)
    (hmax : u.natAbs ≤ greatestUnits) : IsExact u := by
  obtain ⟨m, hm⟩ := exists_unitsOfMagnitude_eq (Int.natCast_dvd.mp hk) hle
  have hpos : 0 < infinityOrdinal := by decide
  have hfin : m < infinityOrdinal := by
    rw [← hm, greatestUnits, strictMono_unitsOfMagnitude.le_iff_le] at hmax
    omega
  have hlt : m < 2 ^ 63 := hfin.trans infinityOrdinal_lt
  refine ⟨ofMagnitude (decide (u < 0)) m, ?_, ?_⟩
  · rwa [isFinite_iff_magnitude, magnitude_ofMagnitude hlt]
  · rw [units, negative_ofMagnitude hlt, magnitude_ofMagnitude hlt, hm]
    by_cases hu : u < 0
    · rw [if_pos (decide_eq_true hu)]
      omega
    · rw [if_neg (by simpa using hu)]
      omega

/-- **A finite double is rounded to itself.** -/
theorem IsExact.units_ofUnits (h : IsExact u) :
    (ofUnits u).isFinite ∧ (ofUnits u).units = u := by
  obtain ⟨x, hx, rfl⟩ := h
  have hfin : (ofUnits x.units).isFinite := by
    rw [isFinite_ofUnits_iff]
    have := natAbs_units_le hx
    have := Nat.two_pow_pos 2044
    omega
  refine ⟨hfin, ?_⟩
  have hle := natAbs_units_ofUnits_sub_le hfin x
  omega

/-! ### Sums and differences -/

/-- **A sum is the rounded sum of units.** Only the sign of an exact zero is another matter. -/
theorem add_eq (hx : x.isFinite) (hy : y.isFinite) :
    add x y = if x.units + y.units = 0 then zero (x.negative && y.negative)
      else ofUnits (x.units + y.units) := by
  have hnan : (x.isNaN || y.isNaN) = false := by
    simp [not_isNaN_of_isFinite hx, not_isNaN_of_isFinite hy]
  simp only [add, hnan, isInfinite_eq_false_of_isFinite hx, isInfinite_eq_false_of_isFinite hy,
    Bool.false_eq_true, if_false]

theorem magnitude_add (hx : x.isFinite) (hy : y.isFinite) :
    (add x y).magnitude = (ofUnits (x.units + y.units)).magnitude := by
  rw [add_eq hx hy]
  split
  · rename_i hsum
    rw [hsum, ofUnits_zero, magnitude_zero, magnitude_zero]
  · rfl

theorem isFinite_add_iff (hx : x.isFinite) (hy : y.isFinite) :
    (add x y).isFinite ↔ (ofUnits (x.units + y.units)).isFinite := by
  rw [isFinite_iff_magnitude, isFinite_iff_magnitude, magnitude_add hx hy]

theorem units_add (hx : x.isFinite) (hy : y.isFinite) :
    (add x y).units = (ofUnits (x.units + y.units)).units := by
  rw [add_eq hx hy]
  split
  · rename_i hsum
    rw [hsum, ofUnits_zero, units_zero, units_zero]
  · rfl

/-- **A sum that is a double is not rounded.** -/
theorem units_add_of_isExact (hx : x.isFinite) (hy : y.isFinite) (h : IsExact (x.units + y.units)) :
    (add x y).isFinite ∧ (add x y).units = x.units + y.units := by
  rw [isFinite_add_iff hx hy, units_add hx hy]
  exact h.units_ofUnits

/-- **A difference that is a double is not rounded.** -/
theorem units_sub_of_isExact (hx : x.isFinite) (hy : y.isFinite) (h : IsExact (x.units - y.units)) :
    (sub x y).isFinite ∧ (sub x y).units = x.units - y.units := by
  have heq : x.units + y.neg.units = x.units - y.units := by rw [units_neg, sub_eq_add_neg]
  rw [← heq] at h ⊢
  exact units_add_of_isExact hx (isFinite_neg hy) h

end Binary64

end ExactNumerics
