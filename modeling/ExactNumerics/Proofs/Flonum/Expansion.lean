import ExactNumerics.Flonum.Sum
import ExactNumerics.Proofs.Binary64.Grid
import Mathlib.Algebra.BigOperators.Ring.List
import Mathlib.Data.List.Induction

/-!
# Sums without an error

The sum of two finite doubles is rounded, but what the rounding leaves over is a double itself, and
it comes out of two subtractions, none of which is rounded (`twoSum`).

An expansion keeps the exact sum of the doubles added so far as a list of doubles, each of which
lies on a grid that is more than twice as wide as the ones before it are large, and even as their
sum is large. This is what adding one more double preserves: what is left over of an addition is
below the grid of the rounded sum, and it is no larger than the double that was added, so it is
below the grids of all the doubles to come.

What is left over is half a spacing of the greatest doubles at most, so all parts of an expansion
but the last are less than a spacing even together. While a double other than the greatest one is
added, the exact partial sums are therefore in range if the sum in the end is. The sums that are
computed differ from them by what has been left over up to then. This is less than half a spacing,
or else it restricts all doubles that are still involved to the grid of two spacings, which has
nothing between the greatest double and the power of two above it. So no partial sum is rounded to
infinity.

## Main definitions

* `FlonumVector.SplitsSum x y high low` — `high` and `low` are the sum of `x` and `y` without an
  error
* `FlonumVector.IsExpansion parts` — the doubles `parts` are an expansion of their sum
* `FlonumVector.Carries a x parts` — the additions of `x` to `parts` have left over `a` so far
* `FlonumVector.expansion? xs` — the expansion of the sum of the doubles `xs`

## Main results

* `FlonumVector.splitsSum_twoSum` — two doubles are added without an error
* `FlonumVector.isExpansion_of_grow?` — so are a double and an expansion
* `FlonumVector.exists_grow?_eq_some` — no partial sum is rounded to infinity
* `FlonumVector.IsExpansion.natAbs_lt` — nor would the whole sum be
* `FlonumVector.isExpansion_of_expansion?`, `FlonumVector.exists_expansion?_eq_some` — the expansion
  of a list of doubles
-/

namespace ExactNumerics

namespace Binary64

variable {a b x y high low : Binary64} {k : ℕ}

/-! ### The sum of two doubles -/

section Remainder

variable (ha : a.isFinite) (hb : b.isFinite) (hfin : (add a b).isFinite)

include ha hb hfin

/-- What an addition leaves over is no larger than either operand. -/
theorem natAbs_units_add_sub_le :
    ((add a b).units - (a.units + b.units)).natAbs ≤ b.units.natAbs ∧
      ((add a b).units - (a.units + b.units)).natAbs ≤ a.units.natAbs := by
  rw [isFinite_add_iff ha hb] at hfin
  rw [units_add ha hb]
  have hleft := natAbs_units_ofUnits_sub_le hfin a
  have hright := natAbs_units_ofUnits_sub_le hfin b
  omega

/-- It is half a spacing of the rounded sum at most. -/
theorem two_mul_natAbs_units_add_sub_le :
    2 * ((add a b).units - (a.units + b.units)).natAbs ≤ 2 ^ spacing (add a b).magnitude := by
  rw [isFinite_add_iff ha hb] at hfin
  rw [units_add ha hb, magnitude_add ha hb]
  exact two_mul_natAbs_units_ofUnits_sub_le hfin

/-- On the grid of both operands lies their rounded sum as well. -/
theorem dvd_units_add (hka : ((2 ^ k : ℕ) : ℤ) ∣ a.units) (hkb : ((2 ^ k : ℕ) : ℤ) ∣ b.units) :
    ((2 ^ k : ℕ) : ℤ) ∣ (add a b).units := by
  rw [isFinite_add_iff ha hb] at hfin
  rw [units_add ha hb]
  exact dvd_units_ofUnits hfin (Int.dvd_add hka hkb)

/-- If both operands are in one binade, the rounded sum is in the next one at most. -/
theorem spacing_add_le (hspacing : spacing a.magnitude = spacing b.magnitude) :
    spacing (add a b).magnitude ≤ spacing b.magnitude + 1 := by
  have hbound := unitsOfMagnitude_add_le a.magnitude
  have hbound' := unitsOfMagnitude_add_le b.magnitude
  rw [hspacing] at hbound
  rw [← natAbs_units] at hbound hbound'
  rw [isFinite_add_iff ha hb] at hfin
  refine spacing_le_of_lt ?_
  rw [magnitude_add ha hb]
  refine (isNearestMagnitude_ofUnits hfin).unitsOfMagnitude_lt ?_
  rw [pow_succ]
  omega

variable (hle : b.magnitude ≤ a.magnitude)

include hle

/-- The rounded sum of two doubles has the sign of the larger one, or it is zero. So the difference
to that one is not too large. -/
theorem natAbs_units_add_sub_left_le : ((add a b).units - a.units).natAbs ≤ greatestUnits := by
  have hmax := natAbs_units_le hfin
  have hmax' := natAbs_units_le ha
  have hab : b.units.natAbs ≤ a.units.natAbs := by
    rw [natAbs_units, natAbs_units]
    exact strictMono_unitsOfMagnitude.monotone hle
  obtain ⟨hnonneg, hnonpos⟩ := units_ofUnits_sign (a.units + b.units)
  rw [← units_add ha hb] at hnonneg hnonpos
  omega

/-- The grid of the smaller operand is one for the larger one and for the rounded sum. -/
theorem two_pow_spacing_dvd_units_add :
    ((2 ^ spacing b.magnitude : ℕ) : ℤ) ∣ a.units ∧
      ((2 ^ spacing b.magnitude : ℕ) : ℤ) ∣ (add a b).units := by
  have hleft : ((2 ^ spacing b.magnitude : ℕ) : ℤ) ∣ a.units :=
    (Int.natCast_dvd_natCast.mpr (pow_dvd_pow 2 (spacing_mono hle))).trans
      (two_pow_spacing_dvd_units a)
  exact ⟨hleft, dvd_units_add ha hb hfin hleft (two_pow_spacing_dvd_units b)⟩

/-- **The difference between the rounded sum and the larger operand is a double.** -/
theorem isExact_add_sub_left : IsExact ((add a b).units - a.units) := by
  have hmax := natAbs_units_add_sub_left_le ha hb hfin hle
  obtain ⟨hrest, -⟩ := natAbs_units_add_sub_le ha hb hfin
  obtain ⟨hleft, hsum⟩ := two_pow_spacing_dvd_units_add ha hb hfin hle
  have hhalf := two_mul_natAbs_units_add_sub_le ha hb hfin
  have hsize := unitsOfMagnitude_add_le b.magnitude
  rw [← natAbs_units] at hsize
  rcases (spacing_mono hle).eq_or_lt with hspacing | hspacing
  · -- in one binade, what is left over is a spacing at most
    have hpow := Nat.pow_le_pow_right (n := 2) (by decide) (spacing_add_le ha hb hfin hspacing.symm)
    rw [pow_succ] at hpow
    refine isExact_of_dvd (Int.dvd_sub hsum hleft) ?_ hmax
    omega
  · by_cases hfine : spacing (add a b).magnitude ≤ spacing b.magnitude
    · -- nothing is left over, as half a spacing is not on the grid
      have hpow := Nat.pow_le_pow_right (n := 2) (by decide) hfine
      have hpos := Nat.two_pow_pos (spacing b.magnitude)
      have hgrid : ((2 ^ spacing b.magnitude : ℕ) : ℤ) ∣ (add a b).units - (a.units + b.units) :=
        Int.dvd_sub hsum (Int.dvd_add hleft (two_pow_spacing_dvd_units b))
      have hzero := Nat.eq_zero_of_dvd_of_lt (Int.natCast_dvd.mp hgrid) (by omega)
      exact ⟨b, hb, by omega⟩
    · -- all of it is on the next wider grid
      have hcoarse {x : Binary64} (h : spacing b.magnitude + 1 ≤ spacing x.magnitude) :
          ((2 ^ (spacing b.magnitude + 1) : ℕ) : ℤ) ∣ x.units :=
        (Int.natCast_dvd_natCast.mpr (pow_dvd_pow 2 h)).trans (two_pow_spacing_dvd_units x)
      refine isExact_of_dvd (Int.dvd_sub (hcoarse (by omega)) (hcoarse hspacing)) ?_ hmax
      rw [pow_succ]
      omega

/-- **What is left over is a double.** -/
theorem isExact_sub_add_sub : IsExact (b.units - ((add a b).units - a.units)) := by
  obtain ⟨hrest, -⟩ := natAbs_units_add_sub_le ha hb hfin
  obtain ⟨hleft, hsum⟩ := two_pow_spacing_dvd_units_add ha hb hfin hle
  have hsize := unitsOfMagnitude_add_le b.magnitude
  rw [← natAbs_units] at hsize
  have hmax := natAbs_units_le hb
  refine isExact_of_dvd (Int.dvd_sub (two_pow_spacing_dvd_units b) (Int.dvd_sub hsum hleft)) ?_ ?_
  · omega
  · omega

/-- **Two subtractions recover what is left over**, and neither of them is rounded. -/
theorem units_sub_sub_add :
    (sub b (sub (add a b) a)).isFinite ∧
      (sub b (sub (add a b) a)).units = a.units + b.units - (add a b).units := by
  obtain ⟨hfin', hunits⟩ := units_sub_of_isExact hfin ha (isExact_add_sub_left ha hb hfin hle)
  have hexact := isExact_sub_add_sub ha hb hfin hle
  rw [← hunits] at hexact
  obtain ⟨hfin'', hunits'⟩ := units_sub_of_isExact hb hfin' hexact
  refine ⟨hfin'', ?_⟩
  rw [hunits', hunits]
  ring

end Remainder

end Binary64

namespace FlonumVector

open Binary64

variable {x y high low : Binary64} {parts grown : List Binary64} {a c s : ℤ} {k : ℕ}

/-! ### Adding two doubles without an error -/

/-- The doubles `high` and `low` are the sum of `x` and `y`: the rounded sum, and what the rounding
left over. -/
structure SplitsSum (x y high low : Binary64) : Prop where
  /-- What is left over is a finite double. -/
  isFinite : low.isFinite
  /-- There is no error. -/
  units_add : high.units + low.units = x.units + y.units
  /-- What is left over is no larger than the second operand. -/
  natAbs_le : low.units.natAbs ≤ y.units.natAbs
  /-- It is below the grid of the rounded sum. -/
  belowGrid : BelowGrid low.units high.units
  /-- It is half a spacing of the largest doubles at most. -/
  natAbs_le_two_pow : low.units.natAbs ≤ 2 ^ 2044
  /-- Both are on any grid on which the operands are. -/
  dvd : ∀ k : ℕ, ((2 ^ k : ℕ) : ℤ) ∣ x.units → ((2 ^ k : ℕ) : ℤ) ∣ y.units →
    ((2 ^ k : ℕ) : ℤ) ∣ high.units ∧ ((2 ^ k : ℕ) : ℤ) ∣ low.units

/-- Both orders of the operands come down to the larger one first. -/
theorem twoSum_eq (x y : Binary64) :
    ∃ large small, small.magnitude ≤ large.magnitude ∧
      (large = x ∧ small = y ∨ large = y ∧ small = x) ∧
      twoSum x y = (large.add small, small.sub ((large.add small).sub large)) := by
  by_cases h : x.magnitude < y.magnitude
  · exact ⟨y, x, h.le, .inr ⟨rfl, rfl⟩, by simp only [twoSum, if_pos h]⟩
  · exact ⟨x, y, not_lt.mp h, .inl ⟨rfl, rfl⟩, by simp only [twoSum, if_neg h]⟩

theorem isFinite_twoSum_iff (hx : x.isFinite) (hy : y.isFinite) :
    (twoSum x y).1.isFinite ↔ (x.units + y.units).natAbs < greatestUnits + 2 ^ 2044 := by
  obtain ⟨large, small, -, ⟨rfl, rfl⟩ | ⟨rfl, rfl⟩, htwoSum⟩ := twoSum_eq x y
  · rw [htwoSum, isFinite_add_iff hx hy, isFinite_ofUnits_iff]
  · rw [htwoSum, isFinite_add_iff hy hx, isFinite_ofUnits_iff, add_comm]

/-- **Two doubles are added without an error.** -/
theorem splitsSum_twoSum (hx : x.isFinite) (hy : y.isFinite) (h : (twoSum x y).1.isFinite) :
    SplitsSum x y (twoSum x y).1 (twoSum x y).2 := by
  obtain ⟨large, small, hle, horder, htwoSum⟩ := twoSum_eq x y
  have hlarge : large.isFinite := by rcases horder with ⟨rfl, -⟩ | ⟨rfl, -⟩ <;> assumption
  have hsmall : small.isFinite := by rcases horder with ⟨-, rfl⟩ | ⟨-, rfl⟩ <;> assumption
  have hsum : large.units + small.units = x.units + y.units := by
    rcases horder with ⟨rfl, rfl⟩ | ⟨rfl, rfl⟩
    · rfl
    · exact add_comm _ _
  simp only [htwoSum] at h ⊢
  obtain ⟨hfin, hlow⟩ := units_sub_sub_add hlarge hsmall h hle
  have hrest := natAbs_units_add_sub_le hlarge hsmall h
  have hhalf := two_mul_natAbs_units_add_sub_le hlarge hsmall h
  have hspacing := Nat.pow_le_pow_right (n := 2) (by decide) (spacing_magnitude_le h)
  have hdouble := two_pow_2045
  refine ⟨hfin, by omega, ?_, ?_, by omega, fun k hkx hky => ?_⟩
  · rcases horder with ⟨-, rfl⟩ | ⟨rfl, -⟩ <;> omega
  · have hbelow := belowGrid_units_ofUnits ((isFinite_add_iff hlarge hsmall).mp h)
    rw [← units_add hlarge hsmall] at hbelow
    exact hbelow.mono (by omega)
  · have hhigh : ((2 ^ k : ℕ) : ℤ) ∣ (large.add small).units := by
      rcases horder with ⟨rfl, rfl⟩ | ⟨rfl, rfl⟩
      · exact dvd_units_add hlarge hsmall h hkx hky
      · exact dvd_units_add hlarge hsmall h hky hkx
    rw [hlow, hsum]
    exact ⟨hhigh, Int.dvd_sub (Int.dvd_add hkx hky) hhigh⟩

/-! ### Expansions -/

/-- The exact sum of a list of doubles, in units. -/
def unitsSum (parts : List Binary64) : ℤ := (parts.map units).sum

@[simp]
theorem unitsSum_nil : unitsSum [] = 0 := rfl

@[simp]
theorem unitsSum_cons (y : Binary64) (parts : List Binary64) :
    unitsSum (y :: parts) = y.units + unitsSum parts := by
  rw [unitsSum, List.map_cons, List.sum_cons, unitsSum]

@[simp]
theorem unitsSum_append (p q : List Binary64) : unitsSum (p ++ q) = unitsSum p + unitsSum q := by
  rw [unitsSum, List.map_append, List.sum_append, unitsSum, unitsSum]

theorem dvd_unitsSum {d : ℤ} (h : ∀ y ∈ parts, d ∣ y.units) : d ∣ unitsSum parts := by
  refine List.dvd_sum fun u hu => ?_
  obtain ⟨y, hy, rfl⟩ := List.mem_map.mp hu
  exact h y hy

/-- An addition may have left over `y` when it went on to sums of which `z` is a part. -/
structure Precedes (y z : Binary64) : Prop where
  /-- The part `z` is on a wide grid. -/
  belowGrid : BelowGrid y.units z.units
  /-- The part `y` is half a spacing of the largest doubles at most. -/
  natAbs_le : y.units.natAbs ≤ 2 ^ 2044

/-- Finite doubles are an expansion of their exact sum if each of them was left over when the ones
after it were added. -/
structure IsExpansion (parts : List Binary64) : Prop where
  /-- The parts are finite. -/
  isFinite : ∀ y ∈ parts, y.isFinite
  /-- The grids of the parts become wider. -/
  pairwise : parts.Pairwise Precedes

/-- The sum of an expansion is below all grids that its parts are below. -/
theorem belowGrid_unitsSum (hpairwise : parts.Pairwise Precedes)
    (h : ∀ y ∈ parts, BelowGrid y.units c) : BelowGrid (unitsSum parts) c := by
  induction parts with
  | nil => exact belowGrid_zero c
  | cons y parts ih =>
    obtain ⟨hy, hparts⟩ := List.forall_mem_cons.mp h
    obtain ⟨hlater, hpairwise⟩ := List.pairwise_cons.mp hpairwise
    rw [unitsSum_cons]
    exact .add (dvd_unitsSum fun z hz => (hlater z hz).belowGrid) hy (ih hpairwise hparts)

namespace IsExpansion

theorem nil : IsExpansion [] := ⟨by simp, .nil⟩

theorem tail (h : IsExpansion (y :: parts)) : IsExpansion parts :=
  ⟨fun z hz => h.isFinite z (.tail y hz), (List.pairwise_cons.mp h.pairwise).2⟩

variable {p q : List Binary64}

theorem left (h : IsExpansion (p ++ q)) : IsExpansion p :=
  ⟨fun y hy => h.isFinite y (List.mem_append_left q hy), (List.pairwise_append.mp h.pairwise).1⟩

/-- The sum of the first parts is below the grid of the sum of the others. -/
theorem belowGrid (h : IsExpansion (p ++ q)) : BelowGrid (unitsSum p) (unitsSum q) := by
  obtain ⟨hp, -, hacross⟩ := List.pairwise_append.mp h.pairwise
  exact belowGrid_unitsSum hp fun y hy => dvd_unitsSum fun z hz => (hacross y hy z hz).belowGrid

/-- **All parts but the last** are less than a spacing of the largest doubles, even together. -/
theorem natAbs_unitsSum_lt (h : IsExpansion (p ++ y :: q)) : (unitsSum p).natAbs < 2 ^ 2045 := by
  induction p using List.reverseRecOn generalizing y q with
  | nil =>
    have hpos := Nat.two_pow_pos 2045
    rwa [unitsSum_nil, Int.natAbs_zero]
  | append_singleton p z ih =>
    rw [List.append_assoc, List.singleton_append] at h
    have hlt := ih h
    obtain ⟨-, hlater, -⟩ := List.pairwise_append.mp h.pairwise
    have hle := ((List.pairwise_cons.mp hlater).1 y (by simp)).natAbs_le
    have hbelow := (left (q := y :: q) (p := p ++ [z]) (by simpa using h)).belowGrid
    rw [unitsSum_append]
    rw [unitsSum_cons, unitsSum_nil, add_zero] at hbelow ⊢
    have hdouble := two_pow_2045
    by_cases hz : z.units = 0
    · rwa [hz, add_zero]
    · have hmore := hbelow.two_mul_natAbs_lt hz
      omega

/-- If the sum of an expansion is zero, so are all sums of first parts. -/
theorem unitsSum_left_eq_zero (h : IsExpansion (p ++ q)) (hzero : unitsSum (p ++ q) = 0) :
    unitsSum p = 0 := by
  have hle := h.belowGrid.natAbs_le_natAbs_add
  rw [← unitsSum_append, hzero] at hle
  omega

/-- **The sum of an expansion is not rounded to infinity.** -/
theorem natAbs_lt (h : IsExpansion parts) :
    (unitsSum parts).natAbs < greatestUnits + 2 ^ 2044 := by
  induction parts using List.reverseRecOn with
  | nil =>
    have := Nat.two_pow_pos 2044
    rw [unitsSum_nil]
    omega
  | append_singleton p y ih =>
    have hbelow := h.belowGrid
    rw [unitsSum_append]
    rw [unitsSum_cons, unitsSum_nil, add_zero] at hbelow ⊢
    exact hbelow.natAbs_add_lt (ih h.left) (natAbs_units_le (h.isFinite y (by simp)))

end IsExpansion

/-! ### Adding a double to an expansion -/

/-- What one addition does: the sum goes on to the other parts, and what it left over stays. -/
theorem grow?_cons_eq_some_iff :
    grow? x (y :: parts) = some grown ↔ (twoSum x y).1.isFinite ∧
      ∃ rest, grow? (twoSum x y).1 parts = some rest ∧
        grown = if (twoSum x y).2.magnitude = 0 then rest else (twoSum x y).2 :: rest := by
  rw [grow?]
  by_cases h : (twoSum x y).1.isFinite
  · simp only [h, if_true, Option.map_eq_some_iff, true_and, eq_comm (b := grown)]
  · simp [h]

/-- Adding a double stays on a grid. -/
theorem dvd_of_grow? (hx : x.isFinite) (hparts : ∀ y ∈ parts, y.isFinite)
    (hkx : ((2 ^ k : ℕ) : ℤ) ∣ x.units) (hk : ∀ y ∈ parts, ((2 ^ k : ℕ) : ℤ) ∣ y.units)
    (h : grow? x parts = some grown) : ∀ y ∈ grown, ((2 ^ k : ℕ) : ℤ) ∣ y.units := by
  induction parts generalizing x grown with
  | nil =>
    obtain rfl : (if x.magnitude = 0 then [] else [x]) = grown := by simpa [grow?] using h
    intro y hy
    split at hy
    · simp at hy
    · rwa [List.mem_singleton.mp hy]
  | cons y parts ih =>
    obtain ⟨hy, hparts⟩ := List.forall_mem_cons.mp hparts
    obtain ⟨hky, hk⟩ := List.forall_mem_cons.mp hk
    obtain ⟨hhigh, rest, hrest, rfl⟩ := grow?_cons_eq_some_iff.mp h
    obtain ⟨hkhigh, hklow⟩ := (splitsSum_twoSum hx hy hhigh).dvd k hkx hky
    have hk := ih hhigh hparts hkhigh hk hrest
    intro z hz
    split at hz
    · exact hk z hz
    · rcases List.mem_cons.mp hz with rfl | hz
      · exact hklow
      · exact hk z hz

/-- **A double is added to an expansion without an error**, and the result is one again. -/
theorem isExpansion_of_grow? (hx : x.isFinite) (hparts : IsExpansion parts)
    (h : grow? x parts = some grown) :
    IsExpansion grown ∧ unitsSum grown = x.units + unitsSum parts := by
  induction parts generalizing x grown with
  | nil =>
    obtain rfl : (if x.magnitude = 0 then [] else [x]) = grown := by simpa [grow?] using h
    split
    · rename_i hzero
      exact ⟨.nil, by simp [units_eq_zero_of_magnitude hzero]⟩
    · exact ⟨⟨by simpa using hx, List.pairwise_singleton _ _⟩, by simp⟩
  | cons y parts ih =>
    obtain ⟨hhigh, rest, hrest, rfl⟩ := grow?_cons_eq_some_iff.mp h
    have hy := hparts.isFinite y (by simp)
    obtain ⟨hlater, -⟩ := List.pairwise_cons.mp hparts.pairwise
    have hsplit := splitsSum_twoSum hx hy hhigh
    obtain ⟨hexpansion, hsum⟩ := ih hhigh hparts.tail hrest
    have hadd := hsplit.units_add
    rw [unitsSum_cons]
    split
    · rename_i hzero
      rw [units_eq_zero_of_magnitude hzero] at hadd
      exact ⟨hexpansion, by omega⟩
    · -- what is left over is below the grids of the sum and of the other parts
      have hbelow := dvd_of_grow? hhigh hparts.tail.isFinite hsplit.belowGrid
        (fun z hz => (hlater z hz).belowGrid.mono hsplit.natAbs_le) hrest
      refine ⟨⟨?_, List.pairwise_cons.mpr ⟨fun z hz => ?_, hexpansion.pairwise⟩⟩, ?_⟩
      · exact List.forall_mem_cons.mpr ⟨hsplit.isFinite, hexpansion.isFinite⟩
      · exact ⟨hbelow z hz, hsplit.natAbs_le_two_pow⟩
      · rw [unitsSum_cons]
        omega

/-- While a double is added, the additions so far have left over `a` units, and `x` is to be added
to `parts`. -/
structure Carries (a : ℤ) (x : Binary64) (parts : List Binary64) : Prop where
  /-- What was left over is less than a spacing of the greatest doubles. -/
  natAbs_lt : a.natAbs < 2 ^ 2045
  /-- It is below the grids of all doubles that are involved. -/
  belowGrid : ∀ y ∈ x :: parts, BelowGrid a y.units
  /-- The exact partial sums are in range. -/
  natAbs_add_le : ∀ p, p <+: parts → (a + x.units + unitsSum p).natAbs ≤ greatestUnits

/-- The next addition is not rounded to infinity. -/
theorem Carries.isFinite_twoSum (h : Carries a x (y :: parts)) (hx : x.isFinite)
    (hy : y.isFinite) : (twoSum x y).1.isFinite := by
  have hle := h.natAbs_add_le [y] (by simp)
  rw [unitsSum_cons, unitsSum_nil, add_zero] at hle
  rw [isFinite_twoSum_iff hx hy]
  have hlt := h.natAbs_lt
  have hdouble := two_pow_2045
  rcases Nat.lt_or_ge a.natAbs (2 ^ 2044) with hsmall | hlarge
  · omega
  · -- all numbers involved are on the grid of two spacings of the greatest doubles
    have hgrid : BelowGrid a (x.units + y.units) :=
      .add_right (h.belowGrid x (by simp)) (h.belowGrid y (by simp))
    obtain ⟨s, hs⟩ := hgrid.two_pow_dvd (k := 2044) hlarge
    have hend := greatestUnits_add
    rw [pow_add] at hs
    omega

/-- **The additions go on** with what is left over of all of them together. -/
theorem Carries.step (h : Carries a x (y :: parts)) (hparts : IsExpansion (y :: parts))
    (hx : x.isFinite) (hhigh : (twoSum x y).1.isFinite) :
    Carries (a + (twoSum x y).2.units) (twoSum x y).1 parts := by
  have hsplit := splitsSum_twoSum hx (hparts.isFinite y (by simp)) hhigh
  obtain ⟨hlater, -⟩ := List.pairwise_cons.mp hparts.pairwise
  obtain ⟨hbelowx, hbelow⟩ := List.forall_mem_cons.mp h.belowGrid
  obtain ⟨hbelowy, hbelow⟩ := List.forall_mem_cons.mp hbelow
  obtain ⟨hbelowhigh, hbelowlow⟩ := hsplit.dvd _ hbelowx hbelowy
  have hadd := hsplit.units_add
  refine ⟨?_, List.forall_mem_cons.mpr ⟨?_, fun z hz => ?_⟩, fun p hp => ?_⟩
  · have hlt := h.natAbs_lt
    have hhalf := hsplit.natAbs_le_two_pow
    have hdouble := two_pow_2045
    by_cases hlow : (twoSum x y).2.units = 0
    · rwa [hlow, add_zero]
    · -- what is left over now is more than twice as large as what was before
      have hmore := BelowGrid.two_mul_natAbs_lt hbelowlow hlow
      omega
  · exact .add hbelowlow hbelowhigh hsplit.belowGrid
  · exact .add hbelowlow (hbelow z hz) ((hlater z hz).belowGrid.mono hsplit.natAbs_le)
  · have hle := h.natAbs_add_le (y :: p) (List.prefix_cons_iff.mpr (.inr ⟨p, rfl, hp⟩))
    rw [unitsSum_cons] at hle
    have heq : a + (twoSum x y).2.units + (twoSum x y).1.units + unitsSum p =
        a + x.units + (y.units + unitsSum p) := by omega
    rwa [heq]

/-- No addition is rounded to infinity. -/
theorem Carries.exists_grow?_eq_some (h : Carries a x parts) (hparts : IsExpansion parts)
    (hx : x.isFinite) : ∃ grown, grow? x parts = some grown := by
  induction parts generalizing a x with
  | nil => exact ⟨_, rfl⟩
  | cons y parts ih =>
    have hhigh := h.isFinite_twoSum hx (hparts.isFinite y (by simp))
    obtain ⟨rest, hrest⟩ := ih (h.step hparts hx hhigh) hparts.tail hhigh
    exact ⟨_, grow?_cons_eq_some_iff.mpr ⟨hhigh, rest, hrest, rfl⟩⟩

/-- **Adding a double to an expansion succeeds** if the exact sum is in range, unless the double is
the greatest one. For that one the part that was left over before may be too much. -/
theorem exists_grow?_eq_some (hx : x.isFinite) (hparts : IsExpansion parts)
    (hle : (x.units + unitsSum parts).natAbs ≤ greatestUnits)
    (hgreatest : x.units.natAbs = greatestUnits → unitsSum parts = 0) :
    ∃ grown, grow? x parts = some grown := by
  refine Carries.exists_grow?_eq_some (a := 0) ⟨?_, fun y _ => belowGrid_zero _, ?_⟩ hparts hx
  · have hpos := Nat.two_pow_pos 2045
    rwa [Int.natAbs_zero]
  · rintro p ⟨q, rfl⟩
    rw [zero_add]
    have hmax := natAbs_units_le hx
    cases q with
    | nil => rwa [List.append_nil] at hle
    | cons y q =>
      by_cases h : x.units.natAbs = greatestUnits
      · rw [hparts.unitsSum_left_eq_zero (hgreatest h)]
        omega
      · have hroom := natAbs_units_add_le (lt_of_le_of_ne hmax h)
        have hlt := hparts.natAbs_unitsSum_lt
        omega

/-! ### The expansion of a list of doubles -/

/-- The expansion of a list of doubles, which are added one by one; `none` when a rounded sum leaves
the range. -/
def expansion? (xs : List Binary64) : Option (List Binary64) :=
  xs.foldl (fun parts x => parts.bind (grow? x)) (some [])

variable {xs ys : List Binary64}

theorem expansion?_concat (xs : List Binary64) (x : Binary64) :
    expansion? (xs ++ [x]) = (expansion? xs).bind (grow? x) := by
  rw [expansion?, List.foldl_append, List.foldl_cons, List.foldl_nil, expansion?]

/-- A list has an expansion only if its first elements have. -/
theorem exists_expansion?_left (h : expansion? (xs ++ ys) = some parts) :
    ∃ firsts, expansion? xs = some firsts := by
  induction ys using List.reverseRecOn generalizing parts with
  | nil => exact ⟨parts, by rwa [List.append_nil] at h⟩
  | append_singleton ys y ih =>
    rw [← List.append_assoc, expansion?_concat] at h
    obtain ⟨before, hbefore, -⟩ := Option.bind_eq_some_iff.mp h
    exact ih hbefore

/-- **The expansion of finite doubles keeps their exact sum.** -/
theorem isExpansion_of_expansion? (hfin : ∀ x ∈ xs, x.isFinite) (h : expansion? xs = some parts) :
    IsExpansion parts ∧ unitsSum parts = unitsSum xs := by
  induction xs using List.reverseRecOn generalizing parts with
  | nil =>
    obtain rfl : [] = parts := Option.some.inj h
    exact ⟨.nil, rfl⟩
  | append_singleton xs x ih =>
    rw [expansion?_concat] at h
    obtain ⟨before, hbefore, hgrow⟩ := Option.bind_eq_some_iff.mp h
    obtain ⟨hexpansion, hsum⟩ := ih (fun y hy => hfin y (List.mem_append_left _ hy)) hbefore
    obtain ⟨hexpansion, hsum'⟩ := isExpansion_of_grow? (hfin x (by simp)) hexpansion hgrow
    refine ⟨hexpansion, ?_⟩
    rw [hsum', hsum, unitsSum_append, unitsSum_cons, unitsSum_nil]
    ring

/-- **There is an expansion** if all partial sums are in range, and the greatest double is added
only to zero. -/
theorem exists_expansion?_eq_some (hfin : ∀ x ∈ xs, x.isFinite)
    (hle : ∀ p, p <+: xs → (unitsSum p).natAbs ≤ greatestUnits)
    (hgreatest : ∀ p x, p ++ [x] <+: xs → x.units.natAbs = greatestUnits → unitsSum p = 0) :
    ∃ parts, expansion? xs = some parts := by
  induction xs using List.reverseRecOn with
  | nil => exact ⟨[], rfl⟩
  | append_singleton xs x ih =>
    have hfin' : ∀ y ∈ xs, y.isFinite := fun y hy => hfin y (List.mem_append_left _ hy)
    have hprefix := List.prefix_append xs [x]
    obtain ⟨before, hbefore⟩ := ih hfin' (fun p hp => hle p (hp.trans hprefix))
      fun p y hp => hgreatest p y (hp.trans hprefix)
    obtain ⟨hexpansion, hsum⟩ := isExpansion_of_expansion? hfin' hbefore
    have hx := hle (xs ++ [x]) List.prefix_rfl
    rw [unitsSum_append, unitsSum_cons, unitsSum_nil, add_zero, add_comm] at hx
    have hgreatest := hgreatest xs x List.prefix_rfl
    rw [← hsum] at hx hgreatest
    obtain ⟨parts, hparts⟩ := exists_grow?_eq_some (hfin x (by simp)) hexpansion hx hgreatest
    exact ⟨parts, by rw [expansion?_concat, hbefore, Option.bind_some, hparts]⟩

end FlonumVector

end ExactNumerics
