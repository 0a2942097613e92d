import ExactNumerics.Proofs.Flonum.Expansion
import ExactNumerics.Proofs.Flonum.PlainSum

/-!
# The sum of a vector is rounded once

As long as no partial sum of the expansion is rounded to infinity, the sum of a vector of finite
doubles is the exact sum, rounded once. So it is the same in every order of the elements in which
that holds.

Whether it holds does depend on the order, and the exact sum does not tell. A vector is added
exactly if all its partial sums are in range, with a caveat for the greatest double: what was left
over before may be half a spacing, and this is all the room there is above the greatest double. In
the other direction, if a vector is added exactly then no partial sum is as large as a number that
would be rounded to infinity. Between the two conditions there is half a spacing. To be safe in all
orders it is enough that the sizes of the elements together are in range.

Two elements that leave the range together are added plainly even if a third one would bring the sum
back. What the plain sum is does depend on the order, and on the number of the elements as well.

## Main definitions

* `FlonumVector.total` — the exact sum of a list of doubles
* `FlonumVector.AddsExactly` — no partial sum is rounded to infinity
* `FlonumVector.PartialSumsInRange` — no exact partial sum is out of range

## Main results

* `FlonumVector.AddsExactly.roundsTo_sum`, `FlonumVector.AddsExactly.sum_eq_of_perm` — a vector that
  is added exactly
* `FlonumVector.PartialSumsInRange.addsExactly`, `FlonumVector.AddsExactly.abs_total_lt` — which
  vectors are
* `FlonumVector.sum_roundsTo_total` — when the sum is the nearest double
* `FlonumVector.not_roundsTo_sum_greatest_greatest_neg` — and that it is not always
-/

namespace ExactNumerics

namespace FlonumVector

open Binary64

variable {v w : FlonumVector} {x : Binary64} {xs ys p : List Binary64} {u : ℤ} {n : ℕ}

/-! ### Exact sums -/

/-- The exact sum of a list of doubles. -/
def total (xs : List Binary64) : ℚ := (xs.map toRat).sum

/-- The sum of the sizes of the doubles in a list. -/
def totalSize (xs : List Binary64) : ℚ := (xs.map fun x => |x.toRat|).sum

theorem total_eq (xs : List Binary64) : total xs = unitsSum xs / unitsPerOne := by
  induction xs with
  | nil => rw [total, List.map_nil, List.sum_nil, unitsSum_nil, Int.cast_zero, zero_div]
  | cons x xs ih =>
    rw [total, List.map_cons, List.sum_cons, ← total, ih, unitsSum_cons, toRat_eq, ← add_div]
    push_cast
    rfl

theorem totalSize_append (xs ys : List Binary64) :
    totalSize (xs ++ ys) = totalSize xs + totalSize ys := by
  rw [totalSize, List.map_append, List.sum_append, totalSize, totalSize]

theorem totalSize_singleton (x : Binary64) : totalSize [x] = |x.toRat| := by
  rw [totalSize, List.map_singleton, List.sum_singleton]

theorem abs_total_le_totalSize (xs : List Binary64) : |total xs| ≤ totalSize xs := by
  induction xs with
  | nil => simp [total, totalSize]
  | cons x xs ih =>
    rw [total, totalSize, List.map_cons, List.map_cons, List.sum_cons, List.sum_cons]
    exact (abs_add_le _ _).trans (add_le_add_right ih _)

theorem totalSize_nonneg (xs : List Binary64) : 0 ≤ totalSize xs :=
  (abs_nonneg _).trans (abs_total_le_totalSize xs)

theorem totalSize_mono (h : p <+: xs) : totalSize p ≤ totalSize xs := by
  obtain ⟨q, rfl⟩ := h
  rw [totalSize_append]
  exact le_add_of_nonneg_right (totalSize_nonneg q)

theorem exactSum_eq (v : FlonumVector) : v.exactSum = unitsSum v.toList := by
  rw [exactSum, unitsSum, ← Array.foldl_toList, List.sum_eq_foldl, List.foldl_map]

/-! ### The range -/

theorem toRat_greatest : greatest.toRat = greatestUnits / unitsPerOne := by
  have hpos : 0 ≤ greatest.toRat := greatest.toRat_sign.1 (by decide)
  have hmagnitude : greatest.magnitude = infinityOrdinal - 1 := by decide
  rw [← abs_of_nonneg hpos, abs_toRat, hmagnitude, greatestUnits]

theorem abs_units_div (u : ℤ) : |(u : ℚ) / unitsPerOne| = u.natAbs / unitsPerOne := by
  rw [abs_div, abs_of_pos ratCast_unitsPerOne_pos, Nat.cast_natAbs, Int.cast_abs]

theorem abs_total_le_greatest_iff :
    |total xs| ≤ greatest.toRat ↔ (unitsSum xs).natAbs ≤ greatestUnits := by
  rw [total_eq, abs_units_div, toRat_greatest, div_le_div_iff_of_pos_right ratCast_unitsPerOne_pos,
    Nat.cast_le]

theorem abs_toRat_eq_greatest_iff :
    |x.toRat| = greatest.toRat ↔ x.units.natAbs = greatestUnits := by
  rw [toRat_eq, abs_units_div, toRat_greatest, div_left_inj' ratCast_unitsPerOne_pos.ne',
    Nat.cast_inj]

theorem total_eq_zero_iff : total xs = 0 ↔ unitsSum xs = 0 := by
  rw [total_eq, div_eq_zero_iff, or_iff_left ratCast_unitsPerOne_pos.ne', Int.cast_eq_zero]

theorem abs_total_lt_overflowBound_iff :
    |total xs| < overflowBound ↔ (unitsSum xs).natAbs < greatestUnits + 2 ^ 2044 := by
  rw [total_eq, ← isFinite_ofUnits_iff, (roundsTo_ofUnits _).isFinite_iff]

/-! ### Vectors that are added exactly -/

/-- The elements are finite, and no partial sum is rounded to infinity. -/
structure AddsExactly (v : FlonumVector) : Prop where
  /-- The elements are finite. -/
  isFinite : ∀ x ∈ v.toList, x.isFinite
  /-- No partial sum leaves the range. -/
  not_overflows : v.expansionOverflows = false

/-- The elements are finite, and the sums of the first ones are no larger than the greatest double.
That one occurs as an element only where the sum is zero. -/
structure PartialSumsInRange (v : FlonumVector) : Prop where
  /-- The elements are finite. -/
  isFinite : ∀ x ∈ v.toList, x.isFinite
  /-- The exact partial sums are in range. -/
  abs_total_le : ∀ p, p <+: v.toList → |total p| ≤ greatest.toRat
  /-- The greatest double or its negative is added to zero only. -/
  total_eq_zero : ∀ p x, p ++ [x] <+: v.toList → |x.toRat| = greatest.toRat → total p = 0

theorem expansionOverflows_eq_false_iff :
    v.expansionOverflows = false ↔ ∃ parts, expansion? v.toList = some parts := by
  rw [expansionOverflows, ← Array.foldl_toList, ← expansion?, Option.isNone_eq_false_iff,
    Option.isSome_iff_exists]

/-- The test in front of the exact sum. -/
theorem addsExactly_iff :
    v.AddsExactly ↔ (v.all Binary64.isFinite && !v.expansionOverflows) = true := by
  rw [Bool.and_eq_true, Bool.not_eq_true', ← Array.all_toList, List.all_eq_true]
  exact ⟨fun h => ⟨h.isFinite, h.not_overflows⟩, fun h => ⟨h.1, h.2⟩⟩

theorem sum_of_not_addsExactly (h : ¬ v.AddsExactly) : v.sum = v.plainSum := by
  rw [sum, if_neg (mt addsExactly_iff.mpr h)]

namespace AddsExactly

/-- The sums of the first elements would not be rounded to infinity. -/
theorem abs_total_lt (h : v.AddsExactly) (hp : p <+: v.toList) : |total p| < overflowBound := by
  obtain ⟨parts, hparts⟩ := expansionOverflows_eq_false_iff.mp h.not_overflows
  have hfin : ∀ x ∈ p, x.isFinite := fun x hx => h.isFinite x (hp.subset hx)
  obtain ⟨q, hq⟩ := hp
  rw [← hq] at hparts
  obtain ⟨firsts, hfirsts⟩ := exists_expansion?_left hparts
  obtain ⟨hexpansion, hsum⟩ := isExpansion_of_expansion? hfin hfirsts
  rw [abs_total_lt_overflowBound_iff, ← hsum]
  exact hexpansion.natAbs_lt

theorem sum_eq (h : v.AddsExactly) : v.sum = ofUnits (unitsSum v.toList) := by
  rw [sum, if_pos (addsExactly_iff.mp h), exactSum_eq]

/-- **The sum is the nearest double.** -/
theorem roundsTo_sum (h : v.AddsExactly) : RoundsTo (total v.toList) v.sum := by
  rw [h.sum_eq, total_eq]
  exact roundsTo_ofUnits _

/-- The order of the elements makes no difference to the sum. -/
theorem sum_eq_of_perm (hv : v.AddsExactly) (hw : w.AddsExactly) (h : w.toList.Perm v.toList) :
    w.sum = v.sum := by
  have hsum : unitsSum w.toList = unitsSum v.toList := (h.map units).sum_eq
  rw [hw.sum_eq, hv.sum_eq, hsum]

end AddsExactly

/-- **A vector whose partial sums are in range is added exactly.** -/
theorem PartialSumsInRange.addsExactly (h : v.PartialSumsInRange) : v.AddsExactly := by
  refine ⟨h.isFinite, expansionOverflows_eq_false_iff.mpr ?_⟩
  refine exists_expansion?_eq_some h.isFinite (fun p hp => ?_) fun p x hp hx => ?_
  · exact abs_total_le_greatest_iff.mp (h.abs_total_le p hp)
  · exact total_eq_zero_iff.mp (h.total_eq_zero p x hp (abs_toRat_eq_greatest_iff.mpr hx))

/-- If the sizes of the elements together are in range, so are all partial sums. -/
theorem partialSumsInRange_of_totalSize_le (hfin : ∀ x ∈ v.toList, x.isFinite)
    (hle : totalSize v.toList ≤ greatest.toRat) : v.PartialSumsInRange := by
  refine ⟨hfin, fun p hp => ?_, fun p x hp hx => ?_⟩
  · exact (abs_total_le_totalSize p).trans ((totalSize_mono hp).trans hle)
  · -- there is no room for anything else
    have hroom := (totalSize_mono hp).trans hle
    rw [totalSize_append, totalSize_singleton, hx] at hroom
    have hzero : |total p| ≤ 0 := (abs_total_le_totalSize p).trans (by linarith)
    exact abs_nonpos_iff.mp hzero

/-- **When the sum of a vector is the nearest double to the exact sum.** That is so if no partial
sum is rounded to infinity, and no partial sum is if they are all in range. Otherwise it is the
plain sum, which adds the elements one by one if they are fewer than eight, and in some order if
not. -/
theorem sum_roundsTo_total (v : FlonumVector) :
    (v.AddsExactly →
        v.sum.isFinite ∧ RoundsTo (total v.toList) v.sum ∧
          (∀ p, p <+: v.toList → |total p| < overflowBound) ∧
          ∀ w : FlonumVector, w.toList.Perm v.toList → w.AddsExactly → w.sum = v.sum) ∧
      (¬ v.AddsExactly → v.sum = v.plainSum ∧
        (v.size < 8 → v.plainSum = v.foldl Binary64.add (zero false)) ∧
        (8 ≤ v.size → AddedUp v.toList v.plainSum)) ∧
      (v.PartialSumsInRange → v.AddsExactly) ∧
      ((∀ x ∈ v.toList, x.isFinite) → totalSize v.toList ≤ greatest.toRat →
        ∀ w : FlonumVector, w.toList.Perm v.toList → w.AddsExactly) := by
  refine ⟨fun h => ?_, fun h => ?_, fun h => h.addsExactly, fun hfin hle w hw => ?_⟩
  · have hrounds := h.roundsTo_sum
    have hlt := h.abs_total_lt List.prefix_rfl
    exact ⟨hrounds.isFinite_iff.mpr hlt, hrounds, fun p hp => h.abs_total_lt hp,
      fun w hw hexact => h.sum_eq_of_perm hexact hw⟩
  · exact ⟨sum_of_not_addsExactly h, plainSum_of_size_lt, addedUp_plainSum v⟩
  · have hsize : totalSize w.toList = totalSize v.toList := (hw.map _).sum_eq
    have hfin' : ∀ x ∈ w.toList, x.isFinite := fun x hx => hfin x (hw.mem_iff.mp hx)
    exact (partialSumsInRange_of_totalSize_le hfin' (hsize.trans_le hle)).addsExactly

/-- One is kept although it is far below the last place of what is added before and after it. The
greatest doubles below show what is excluded. -/
theorem sum_roundsTo_total_cancellation :
    let v : FlonumVector := #[ofBits 0x54B249AD2594C37D, one, ofBits 0xD4B249AD2594C37D]
    let w : FlonumVector := #[greatest, greatest]
    (∀ x ∈ v.toList, x.isFinite) ∧ totalSize v.toList ≤ greatest.toRat ∧ v.PartialSumsInRange ∧
      v.AddsExactly ∧ RoundsTo (total v.toList) v.sum ∧ v.sum = one ∧ v.plainSum = zero false ∧
      ¬ w.AddsExactly ∧ w.sum = w.plainSum := by
  intro v w
  have hfin : ∀ x ∈ v.toList, x.isFinite := by decide
  have hle : totalSize v.toList ≤ greatest.toRat := by decide +kernel
  have hrange := partialSumsInRange_of_totalSize_le hfin hle
  have hv := (sum_roundsTo_total v).2.2.1 hrange
  have hw : ¬ w.AddsExactly := mt addsExactly_iff.mp (by decide +kernel)
  exact ⟨hfin, hle, hrange, (sum_roundsTo_total v).2.2.2 hfin hle v (.refl _),
    ((sum_roundsTo_total v).1 hv).2.1, by decide +kernel, by decide +kernel, hw,
    ((sum_roundsTo_total w).2.1 hw).1⟩

/-- **The exact sum does not tell whether it is returned.** The first two elements leave the range,
although their sum with the third one is a double, and in another order that double is the sum. -/
theorem not_roundsTo_sum_greatest_greatest_neg :
    let v : FlonumVector := #[greatest, greatest, greatest.neg]
    let w : FlonumVector := #[greatest, greatest.neg, greatest]
    (∀ x ∈ v.toList, x.isFinite) ∧ |total v.toList| ≤ greatest.toRat ∧
      RoundsTo (total v.toList) greatest ∧ v.sum = infinity false ∧
      ¬ RoundsTo (total v.toList) v.sum ∧ w.toList.Perm v.toList ∧ w.sum = greatest := by
  intro v w
  have hv : v.sum = infinity false := by decide +kernel
  have hw : w.sum = greatest := by decide +kernel
  have hperm : w.toList.Perm v.toList := (List.Perm.swap _ _ []).cons _
  have hexact : w.AddsExactly := addsExactly_iff.mpr (by decide +kernel)
  have hrounds := hexact.roundsTo_sum
  have htotal : total w.toList = total v.toList := (hperm.map _).sum_eq
  rw [hw, htotal] at hrounds
  refine ⟨by decide, by decide +kernel, hrounds, hv, fun h => ?_, hperm, hw⟩
  exact absurd (h.unique hrounds) (by rw [hv]; decide)

end FlonumVector

end ExactNumerics
