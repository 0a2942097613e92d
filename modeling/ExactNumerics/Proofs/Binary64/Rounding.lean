import ExactNumerics.Binary64.Rounding
import ExactNumerics.Proofs.Binary64.Ordinal
import Mathlib.Algebra.Order.Field.Basic

/-!
# Rounding is to nearest

The units of the magnitudes form a strictly increasing sequence, which goes on above the largest
finite double with binades of the same kind. A quotient of naturals lies between two neighbours of
this sequence. The rounding rule finds the binade from the binary logarithm of the quotient, and in
the binade the lower neighbour by a division, whose remainder tells which of the two is nearer. All
other magnitudes are farther away, because they lie beyond one of the two. So the rule picks the
nearest magnitude of the unbounded sequence, and of two equally near ones the even one.

Where the sequence reaches the magnitude of infinity, it is cut. The quotients from which on that
happens are read off from the choice itself: they lie above the middle between the largest finite
magnitude and that of infinity, or at the middle, since the magnitude of infinity is even.

For rational numbers of either sign it remains to compare with doubles of the other sign, and these
are farther away than zero is.

Nearest and even is enough to determine the double. If there were two, then both of them would be
even, so there would be another one in between, and that would be nearer.

## Main definitions

* `Binary64.IsNearestMagnitude n d m` — no magnitude has units nearer to `n / d`
* `Binary64.overflowBound` — the least rational number that is rounded to infinity
* `Binary64.RoundsTo q x` — rounding to nearest, ties to even

## Main results

* `Binary64.unitsOfMagnitude_binade` — the units within a binade
* `Binary64.isNearestMagnitude_unboundedMagnitude` — the choice between neighbours
* `Binary64.roundsTo_roundUnits`, `Binary64.roundsTo_ofRat` — the rounding rule rounds to nearest
* `Binary64.RoundsTo.unique` — there is no other way to do so
* `Binary64.roundMagnitude_unitsOfMagnitude` — what is a double already is not changed
-/

namespace ExactNumerics

/-- The nearest integer is the quotient rounded down or the next one, and the remainder says which.
A tie goes to the even one. -/
theorem nearestEven_cases (n w : ℕ) :
    (2 * (n % w) = w → nearestEven n w % 2 = 0) ∧
      (nearestEven n w = n / w ∧ 2 * (n % w) ≤ w ∨
        nearestEven n w = n / w + 1 ∧ w ≤ 2 * (n % w)) := by
  simp only [nearestEven]
  split
  · omega
  · split <;> omega

namespace Binary64

variable {n d m m' k s : ℕ} {q : ℚ} {x y : Binary64}

/-! ### Binades -/

/-- **The units within a binade**, its upper end included. -/
theorem unitsOfMagnitude_binade (hs : s ≤ 2 ^ 53) (hk : k = 0 ∨ 2 ^ 52 ≤ s) :
    unitsOfMagnitude (k * 2 ^ 52 + s) = s * 2 ^ k := by
  rcases hs.lt_or_eq with hlt | rfl
  · have hspacing : spacing (k * 2 ^ 52 + s) = k := by
      simp only [spacing]
      omega
    rw [unitsOfMagnitude, hspacing, Nat.add_sub_cancel_left]
  · have hspacing : spacing (k * 2 ^ 52 + 2 ^ 53) = k + 1 := by
      simp only [spacing]
      omega
    have hnum : k * 2 ^ 52 + 2 ^ 53 - (k + 1) * 2 ^ 52 = 2 ^ 52 := by omega
    rw [unitsOfMagnitude, hspacing, hnum]
    ring

/-- The significand of a quotient has 53 bits, unless the spacing is the least one. -/
theorem quotient_binade (n d : ℕ) :
    n / (d * 2 ^ roundingSpacing n d) < 2 ^ 53 ∧
      (roundingSpacing n d = 0 ∨ 2 ^ 52 ≤ n / (d * 2 ^ roundingSpacing n d)) := by
  rw [← Nat.div_div_eq_div_mul, roundingSpacing]
  generalize n / d = a
  by_cases ha : a < 2 ^ 53
  · have hlog : a.log2 - 52 = 0 := by
      by_cases hzero : a = 0
      · rw [hzero]
        rfl
      · have := (Nat.log2_lt hzero).mpr ha
        omega
    rw [hlog, pow_zero, Nat.div_one]
    exact ⟨ha, .inl rfl⟩
  · have hzero : a ≠ 0 := by omega
    have hlog : 53 ≤ a.log2 := (Nat.le_log2 hzero).mpr (by omega)
    refine ⟨Nat.div_lt_of_lt_mul ?_, .inr ?_⟩
    · calc a < 2 ^ (a.log2 + 1) := Nat.lt_log2_self
        _ = 2 ^ (a.log2 - 52) * 2 ^ 53 := by
            rw [← pow_add]
            congr 1
            omega
    · rw [Nat.le_div_iff_mul_le (Nat.two_pow_pos _)]
      calc 2 ^ 52 * 2 ^ (a.log2 - 52) = 2 ^ a.log2 := by
            rw [← pow_add]
            congr 1
            omega
        _ ≤ a := Nat.log2_self_le hzero

/-! ### The nearest magnitude -/

/-- The distance between the units of a magnitude and `n / d`, multiplied by `d`. -/
def offset (n d m : ℕ) : ℕ := ((d * unitsOfMagnitude m : ℕ) - n : ℤ).natAbs

/-- No magnitude has units nearer to `n / d`, and if another one is as near, this one is even. -/
structure IsNearestMagnitude (n d m : ℕ) : Prop where
  /-- No other magnitude is nearer. -/
  le : ∀ m', offset n d m ≤ offset n d m'
  /-- A tie goes to the even one. -/
  even : ∀ m', m' ≠ m → offset n d m' = offset n d m → m % 2 = 0

/-- The rounding rule without a greatest magnitude. -/
def unboundedMagnitude (n d : ℕ) : ℕ :=
  roundingSpacing n d * 2 ^ 52 + nearestEven n (d * 2 ^ roundingSpacing n d)

theorem offset_of_le (h : d * unitsOfMagnitude m ≤ n) :
    offset n d m = n - d * unitsOfMagnitude m := by
  rw [offset]
  omega

theorem offset_of_ge (h : n ≤ d * unitsOfMagnitude m) :
    offset n d m = d * unitsOfMagnitude m - n := by
  rw [offset]
  omega

theorem mul_unitsOfMagnitude_lt (hd : 0 < d) (h : m < m') :
    d * unitsOfMagnitude m < d * unitsOfMagnitude m' :=
  Nat.mul_lt_mul_of_pos_left (strictMono_unitsOfMagnitude h) hd

/-- **The neighbours of a quotient.** It lies between two of them, every other magnitude lies beyond
one of the two, and the rule picks the nearer one. -/
theorem exists_neighbours (n : ℕ) (hd : 0 < d) :
    ∃ m, (∀ m' < m, offset n d m < offset n d m') ∧
      (∀ m' > m + 1, offset n d (m + 1) < offset n d m') ∧
      (offset n d m = offset n d (m + 1) → unboundedMagnitude n d % 2 = 0) ∧
      (unboundedMagnitude n d = m ∧ offset n d m ≤ offset n d (m + 1) ∨
        unboundedMagnitude n d = m + 1 ∧ offset n d (m + 1) ≤ offset n d m) := by
  obtain ⟨hlt, hnormal⟩ := quotient_binade n d
  rw [unboundedMagnitude]
  generalize roundingSpacing n d = k at hlt hnormal ⊢
  obtain ⟨htie, hcases⟩ := nearestEven_cases n (d * 2 ^ k)
  have hdiv := Nat.div_add_mod n (d * 2 ^ k)
  have hmod := Nat.mod_lt n (Nat.mul_pos hd (Nat.two_pow_pos k))
  generalize n / (d * 2 ^ k) = s at hlt hnormal hcases hdiv
  generalize n % (d * 2 ^ k) = r at htie hcases hdiv hmod
  -- the neighbours are a spacing apart, and the remainder is the distance to the lower one
  have hlower : d * unitsOfMagnitude (k * 2 ^ 52 + s) + r = n := by
    rw [unitsOfMagnitude_binade hlt.le hnormal, ← hdiv]
    ring
  have hupper : d * unitsOfMagnitude (k * 2 ^ 52 + s + 1) + r = n + d * 2 ^ k := by
    have hle : s + 1 ≤ 2 ^ 53 := hlt
    rw [add_assoc, unitsOfMagnitude_binade hle (by omega), ← hdiv]
    ring
  have hoffset : offset n d (k * 2 ^ 52 + s) = r := by
    rw [offset_of_le (by omega)]
    omega
  have hoffset' : offset n d (k * 2 ^ 52 + s + 1) = d * 2 ^ k - r := by
    rw [offset_of_ge (by omega)]
    omega
  refine ⟨k * 2 ^ 52 + s, ?_, ?_, ?_, ?_⟩
  · intro m' h
    have := mul_unitsOfMagnitude_lt hd h
    rw [hoffset, offset_of_le (by omega)]
    omega
  · intro m' h
    have := mul_unitsOfMagnitude_lt hd h
    rw [hoffset', offset_of_ge (by omega)]
    omega
  · rw [hoffset, hoffset']
    omega
  · rw [hoffset, hoffset']
    omega

/-- **The rule picks the nearest magnitude.** -/
theorem isNearestMagnitude_unboundedMagnitude (n : ℕ) (hd : 0 < d) :
    IsNearestMagnitude n d (unboundedMagnitude n d) := by
  obtain ⟨m, hbelow, habove, htie, hcases⟩ := exists_neighbours n hd
  have hplace (m' : ℕ) : offset n d m < offset n d m' ∨ offset n d (m + 1) < offset n d m' ∨
      m' = m ∨ m' = m + 1 := by
    have := hbelow m'
    have := habove m'
    omega
  constructor
  · intro m'
    rcases hcases with ⟨heq, hle⟩ | ⟨heq, hle⟩ <;> rw [heq] <;>
      rcases hplace m' with h | h | rfl | rfl <;> omega
  · intro m' hne hsame
    refine htie ?_
    rcases hcases with ⟨heq, hle⟩ | ⟨heq, hle⟩ <;> rw [heq] at hne hsame <;>
      rcases hplace m' with h | h | rfl | rfl <;> omega

/-! ### The cut at infinity -/

/-- The units at the magnitude of infinity, if the sequence is continued. -/
theorem unitsOfMagnitude_infinityOrdinal :
    unitsOfMagnitude infinityOrdinal = 2 ^ 52 * 2 ^ 2046 := by
  have hbinade : infinityOrdinal = 2046 * 2 ^ 52 + 2 ^ 52 := by decide
  rw [hbinade, unitsOfMagnitude_binade (by decide) (.inr le_rfl)]

/-- The magnitude before is one spacing below. -/
theorem unitsOfMagnitude_pred_infinityOrdinal :
    unitsOfMagnitude infinityOrdinal = unitsOfMagnitude (infinityOrdinal - 1) + 2 ^ 2045 := by
  have hspacing : spacing (infinityOrdinal - 1) = 2045 := by decide
  have hsucc : infinityOrdinal = infinityOrdinal - 1 + 1 := by decide
  rw [hsucc, unitsOfMagnitude_succ, ← hsucc, hspacing]

/-- **What is nearest to infinity or to a magnitude beyond** lies above the middle between the
greatest finite magnitude and that of infinity, or at it, since the latter is even. -/
theorem IsNearestMagnitude.infinityOrdinal_le_iff (h : IsNearestMagnitude n d m) (hd : 0 < d) :
    infinityOrdinal ≤ m ↔
      d * (unitsOfMagnitude (infinityOrdinal - 1) + unitsOfMagnitude infinityOrdinal) ≤ 2 * n := by
  have hpos : 0 < infinityOrdinal := by decide
  have hlast := h.le (infinityOrdinal - 1)
  have hfirst := h.le infinityOrdinal
  have hlt := mul_unitsOfMagnitude_lt hd (Nat.pred_lt hpos.ne')
  have hmono {a b : ℕ} (hab : a ≤ b) : d * unitsOfMagnitude a ≤ d * unitsOfMagnitude b :=
    Nat.mul_le_mul_left d (strictMono_unitsOfMagnitude.monotone hab)
  rw [mul_add]
  constructor
  · intro hle
    have := hmono hle
    simp only [offset, Nat.pred_eq_sub_one] at hlast hlt
    omega
  · intro hle
    by_contra hbelow
    rcases (show m ≤ infinityOrdinal - 1 by omega).lt_or_eq with hm | rfl
    · have := mul_unitsOfMagnitude_lt hd hm
      simp only [offset, Nat.pred_eq_sub_one] at hfirst hlt
      omega
    · have htie := h.even infinityOrdinal (by omega)
      simp only [offset, Nat.pred_eq_sub_one] at hfirst hlt htie
      have hodd : ¬ (infinityOrdinal - 1) % 2 = 0 := by decide
      refine hodd (htie ?_)
      omega

/-! ### Rational numbers -/

/-- The least rational number that is rounded to infinity, half a spacing above the greatest finite
double. -/
def overflowBound : ℚ := 2 ^ 1024 - 2 ^ 970

theorem overflowBound_le_two_pow {e : ℕ} (he : 1024 ≤ e) : overflowBound ≤ 2 ^ e := by
  have hpos : (0 : ℚ) ≤ 2 ^ 970 := (pow_pos two_pos _).le
  calc overflowBound ≤ 2 ^ 1024 := sub_le_self _ hpos
    _ ≤ 2 ^ e := pow_le_pow_right₀ one_le_two he

theorem one_lt_overflowBound : 1 < overflowBound := by
  have hpow : (1 : ℚ) < 2 ^ 970 := one_lt_pow₀ one_lt_two (by decide)
  have hsplit : (2 : ℚ) ^ 1024 = 2 ^ 54 * 2 ^ 970 := by rw [← pow_add]
  have hbound : overflowBound = (2 ^ 54 - 1) * 2 ^ 970 := by
    rw [overflowBound, hsplit, sub_one_mul]
  rw [hbound]
  exact one_lt_mul_of_le_of_lt (by norm_num) hpow

theorem ratCast_unitsPerOne : (unitsPerOne : ℚ) = 2 ^ 1074 := by
  rw [unitsPerOne]
  -- the power itself must not be evaluated
  generalize 1074 = e
  rw [Nat.cast_pow, Nat.cast_ofNat]

/-- The bound is the middle between the greatest finite magnitude and that of infinity. -/
theorem two_mul_overflowBound_mul :
    2 * (overflowBound * unitsPerOne) =
      unitsOfMagnitude (infinityOrdinal - 1) + unitsOfMagnitude infinityOrdinal := by
  have hinfinity : (unitsOfMagnitude infinityOrdinal : ℚ) = 2 ^ 52 * 2 ^ 2046 := by
    rw [unitsOfMagnitude_infinityOrdinal]
    generalize 2046 = e
    rw [Nat.cast_mul, Nat.cast_pow, Nat.cast_pow, Nat.cast_ofNat]
  have hpred : (unitsOfMagnitude infinityOrdinal : ℚ) =
      unitsOfMagnitude (infinityOrdinal - 1) + 2 ^ 2045 := by
    rw [unitsOfMagnitude_pred_infinityOrdinal]
    generalize 2045 = e
    rw [Nat.cast_add, Nat.cast_pow, Nat.cast_ofNat]
  have hpowers (e : ℕ) : 2 * (((2 : ℚ) ^ (e + 54) - 2 ^ e) * 2 ^ (e + 104)) =
      2 * (2 ^ 52 * 2 ^ (2 * e + 106)) - 2 ^ (2 * e + 105) := by ring
  have hbound : 2 * (((2 : ℚ) ^ 1024 - 2 ^ 970) * 2 ^ 1074) = 2 * (2 ^ 52 * 2 ^ 2046) - 2 ^ 2045 :=
    hpowers 970
  rw [overflowBound, ratCast_unitsPerOne, hbound, ← hinfinity, two_mul]
  exact sub_eq_iff_eq_add.mpr (by rw [add_right_comm, ← hpred])

/-- Rounding to nearest, ties to even. A number from the bound on is rounded to the infinity of its
sign, and every other number to a finite double to which no other is nearer. The parity of the
magnitude is that of the last bit. -/
structure RoundsTo (q : ℚ) (x : Binary64) : Prop where
  /-- No number is rounded to a NaN. -/
  not_isNaN : ¬ x.isNaN
  /-- The double has the sign of the number. -/
  negative_eq : x.negative = decide (q < 0)
  /-- It is finite below the bound, and infinite from there on. -/
  isFinite_iff : x.isFinite ↔ |q| < overflowBound
  /-- No finite double is nearer to the number than a finite one to which it is rounded. -/
  le : x.isFinite → ∀ y : Binary64, y.isFinite → |x.toRat - q| ≤ |y.toRat - q|
  /-- If one of another value is as near, then the last bit is zero. -/
  even : x.isFinite → ∀ y : Binary64, y.isFinite → y.toRat ≠ x.toRat →
    |y.toRat - q| = |x.toRat - q| → x.magnitude % 2 = 0

theorem toRat_eq (x : Binary64) : x.toRat = x.units / unitsPerOne := by
  rw [toRat, Rat.mkRat_eq_div]

theorem natAbs_units (x : Binary64) : x.units.natAbs = unitsOfMagnitude x.magnitude := by
  rw [units]
  split <;> omega

theorem ratCast_unitsPerOne_pos : (0 : ℚ) < unitsPerOne := Nat.cast_pos.mpr unitsPerOne_pos

theorem mul_unitsPerOne_pos (hd : 0 < d) : (0 : ℚ) < d * unitsPerOne :=
  mul_pos (Nat.cast_pos.mpr hd) ratCast_unitsPerOne_pos

theorem abs_toRat (x : Binary64) : |x.toRat| = unitsOfMagnitude x.magnitude / unitsPerOne := by
  rw [toRat_eq, abs_div, abs_of_pos ratCast_unitsPerOne_pos, ← natAbs_units, Nat.cast_natAbs,
    Int.cast_abs]

/-- The distance of absolute values is the distance of units. -/
theorem abs_abs_sub_abs_mul (hd : 0 < d) (hq : |q| * unitsPerOne = n / d) (y : Binary64) :
    |(|y.toRat| - |q|)| * (d * unitsPerOne) = offset n d y.magnitude := by
  have hd' : (0 : ℚ) < d := Nat.cast_pos.mpr hd
  have hunits : |y.toRat| * unitsPerOne = unitsOfMagnitude y.magnitude := by
    rw [abs_toRat, div_mul_cancel₀ _ ratCast_unitsPerOne_pos.ne']
  have hn : d * (|q| * unitsPerOne) = n := by rw [hq, mul_div_cancel₀ _ hd'.ne']
  have hdiff : (|y.toRat| - |q|) * (d * unitsPerOne) = d * unitsOfMagnitude y.magnitude - n := by
    rw [← hunits, ← hn]
    ring
  calc |(|y.toRat| - |q|)| * (d * unitsPerOne)
      = |(|y.toRat| - |q|) * (d * unitsPerOne)| := by
        rw [abs_mul, abs_of_pos (mul_unitsPerOne_pos hd)]
    _ = |(((d * unitsOfMagnitude y.magnitude : ℕ) - n : ℤ) : ℚ)| := by
        rw [hdiff]
        push_cast
        rfl
    _ = offset n d y.magnitude := by rw [offset, Nat.cast_natAbs, Int.cast_abs]

/-- The sign of a double is the sign of its value. -/
theorem toRat_sign (x : Binary64) :
    (x.negative = false → 0 ≤ x.toRat) ∧ (x.negative = true → x.toRat ≤ 0) := by
  have hpos := ratCast_unitsPerOne_pos
  rw [toRat_eq, units]
  constructor
  · intro h
    rw [h, if_neg Bool.false_ne_true, Int.cast_natCast]
    exact div_nonneg (Nat.cast_nonneg _) hpos.le
  · intro h
    rw [h, if_pos rfl, Int.cast_neg, Int.cast_natCast, neg_div, neg_nonpos]
    exact div_nonneg (Nat.cast_nonneg _) hpos.le

/-- A double with the sign of a number is as far from it as their absolute values are apart. -/
theorem abs_sub_of_negative_eq (h : x.negative = decide (q < 0)) :
    |x.toRat - q| = |(|x.toRat| - |q|)| := by
  obtain ⟨hnonneg, hnonpos⟩ := x.toRat_sign
  by_cases hq : q < 0
  · rw [abs_of_nonpos (hnonpos (by simpa [hq] using h)), abs_of_neg hq, neg_sub_neg, abs_sub_comm]
  · rw [abs_of_nonneg (hnonneg (by simpa [hq] using h)), abs_of_nonneg (not_lt.mp hq)]

theorem isFinite_zero (s : Bool) : (zero s).isFinite := by cases s <;> decide

theorem toRat_zero (s : Bool) : (zero s).toRat = 0 := by
  rw [← abs_eq_zero, abs_toRat, zero, magnitude_ofMagnitude (by decide), unitsOfMagnitude_zero,
    Nat.cast_zero, zero_div]

/-- Of two numbers with one absolute value, only one is at a distance that is not larger than that
of zero. -/
theorem eq_of_abs_eq_of_tie {a b : ℚ} (habs : |b| = |a|) (htie : |b - q| = |a - q|)
    (hzero : |a - q| ≤ |q|) : b = a := by
  rcases abs_eq_abs.mp habs with h | h
  · exact h
  · rcases abs_eq_abs.mp htie with h' | h'
    · linarith
    · have hq : q = 0 := by linarith
      rw [hq, sub_zero, abs_zero, abs_nonpos_iff] at hzero
      rw [h, hzero, neg_zero]

/-- The bound, in units. -/
theorem lt_overflowBound_iff (hd : 0 < d) (hq : |q| * unitsPerOne = n / d) :
    |q| < overflowBound ↔
      2 * n < d * (unitsOfMagnitude (infinityOrdinal - 1) + unitsOfMagnitude infinityOrdinal) := by
  have hd' : (0 : ℚ) < d := Nat.cast_pos.mpr hd
  rw [← mul_lt_mul_iff_of_pos_right ratCast_unitsPerOne_pos, hq, div_lt_iff₀ hd',
    ← mul_lt_mul_iff_of_pos_left (two_pos : (0 : ℚ) < 2), ← mul_assoc 2, two_mul_overflowBound_mul,
    ← Nat.cast_lt (α := ℚ), mul_comm d]
  push_cast
  rfl

/-- What a quotient is rounded to before the cut, and whether it is cut. -/
theorem roundMagnitude_eq (n d : ℕ) :
    roundMagnitude n d =
      if infinityOrdinal ≤ unboundedMagnitude n d then infinityOrdinal
      else unboundedMagnitude n d := by
  rw [roundMagnitude, unboundedMagnitude]
  exact Nat.min_def

theorem roundMagnitude_le (n d : ℕ) : roundMagnitude n d ≤ infinityOrdinal := by
  rw [roundMagnitude_eq]
  split <;> omega

theorem magnitude_roundUnits (s : Bool) (n d : ℕ) :
    (roundUnits s n d).magnitude = roundMagnitude n d :=
  magnitude_ofMagnitude ((roundMagnitude_le n d).trans_lt infinityOrdinal_lt)

theorem negative_roundUnits (s : Bool) (n d : ℕ) : (roundUnits s n d).negative = s :=
  negative_ofMagnitude ((roundMagnitude_le n d).trans_lt infinityOrdinal_lt)

theorem isFinite_roundUnits_iff (s : Bool) (n d : ℕ) :
    (roundUnits s n d).isFinite ↔ unboundedMagnitude n d < infinityOrdinal := by
  rw [isFinite_iff_magnitude, magnitude_roundUnits, roundMagnitude_eq]
  split <;> omega

section RoundUnits

variable (hd : 0 < d) (hq : |q| * unitsPerOne = n / d)

include hd hq

/-- No finite double is nearer to a number than its units are to the quotient, whatever its sign. -/
theorem offset_le_abs_sub_mul (y : Binary64) :
    offset n d y.magnitude ≤ |y.toRat - q| * (d * unitsPerOne) := by
  rw [← abs_abs_sub_abs_mul hd hq]
  exact mul_le_mul_of_nonneg_right (abs_abs_sub_abs_le y.toRat q) (mul_unitsPerOne_pos hd).le

/-- The rounded double is as near as that, as it has the sign of the number. -/
theorem abs_sub_roundUnits_mul (hfin : unboundedMagnitude n d < infinityOrdinal) :
    |(roundUnits (decide (q < 0)) n d).toRat - q| * (d * unitsPerOne) =
      offset n d (unboundedMagnitude n d) := by
  rw [abs_sub_of_negative_eq (negative_roundUnits _ n d), abs_abs_sub_abs_mul hd hq,
    magnitude_roundUnits, roundMagnitude_eq, if_neg (not_le.mpr hfin)]

/-- **The rounding rule rounds to nearest**, and ties to even. -/
theorem roundsTo_roundUnits : RoundsTo q (roundUnits (decide (q < 0)) n d) := by
  have hnearest := isNearestMagnitude_unboundedMagnitude n hd
  have hfar (y : Binary64) :
      (offset n d (unboundedMagnitude n d) : ℚ) ≤ offset n d y.magnitude :=
    Nat.cast_le.mpr (hnearest.le y.magnitude)
  have hle (hfin : (roundUnits (decide (q < 0)) n d).isFinite) (y : Binary64) :
      |(roundUnits (decide (q < 0)) n d).toRat - q| ≤ |y.toRat - q| := by
    rw [isFinite_roundUnits_iff] at hfin
    refine le_of_mul_le_mul_right ?_ (mul_unitsPerOne_pos hd)
    rw [abs_sub_roundUnits_mul hd hq hfin]
    exact (hfar y).trans (offset_le_abs_sub_mul hd hq y)
  constructor
  · rw [isNaN, decide_eq_true_eq, magnitude_roundUnits, not_lt]
    exact roundMagnitude_le n d
  · exact negative_roundUnits _ n d
  · rw [isFinite_roundUnits_iff, lt_overflowBound_iff hd hq, ← not_le,
      hnearest.infinityOrdinal_le_iff hd, not_le]
  · intro hfin y _
    exact hle hfin y
  · intro hfin y _ hne htie
    have hfin' := (isFinite_roundUnits_iff _ n d).mp hfin
    have hmagnitude : (roundUnits (decide (q < 0)) n d).magnitude = unboundedMagnitude n d := by
      rw [magnitude_roundUnits, roundMagnitude_eq, if_neg (not_le.mpr hfin')]
    rw [hmagnitude]
    refine hnearest.even y.magnitude (fun hsame => hne ?_) ?_
    · -- the same magnitude with the other sign is farther away
      refine eq_of_abs_eq_of_tie ?_ htie ?_
      · rw [abs_toRat, abs_toRat, hsame, hmagnitude]
      · calc |(roundUnits (decide (q < 0)) n d).toRat - q| ≤ |(zero false).toRat - q| :=
              hle hfin (zero false)
          _ = |q| := by rw [toRat_zero, zero_sub, abs_neg]
    · have hupper := offset_le_abs_sub_mul hd hq y
      rw [htie, abs_sub_roundUnits_mul hd hq hfin', Nat.cast_le] at hupper
      exact le_antisymm hupper (hnearest.le y.magnitude)

end RoundUnits

/-- **Rational numbers are rounded to nearest.** -/
theorem roundsTo_ofRat (q : ℚ) : RoundsTo q (ofRat q) := by
  have hsign : decide (q.num < 0) = decide (q < 0) := by rw [decide_eq_decide, Rat.num_neg]
  rw [ofRat, hsign]
  refine roundsTo_roundUnits q.den_pos ?_
  rw [Nat.cast_mul, mul_div_right_comm, Nat.cast_natAbs, Int.cast_abs]
  congr 1
  conv_lhs => rw [← q.num_div_den, abs_div, Nat.abs_cast]

/-! ### Only one double is nearest -/

/-- Even ordinals are not consecutive, so there is a double in between. -/
theorem exists_toRat_between (hx : x.isFinite) (hy : y.isFinite) (hxe : x.magnitude % 2 = 0)
    (hye : y.magnitude % 2 = 0) (hlt : x.ordinal < y.ordinal) :
    ∃ z : Binary64, z.isFinite ∧ x.toRat < z.toRat ∧ z.toRat < y.toRat := by
  rw [isFinite_iff_ordinal] at hx hy
  rw [← natAbs_ordinal] at hxe hye
  have hord : (ofOrdinal (x.ordinal + 1)).ordinal = x.ordinal + 1 := ordinal_ofOrdinal (by omega)
  refine ⟨ofOrdinal (x.ordinal + 1), ?_, ?_, ?_⟩
  · rw [isFinite_iff_ordinal, hord]
    omega
  · rw [toRat_lt_iff, hord]
    omega
  · rw [toRat_lt_iff, hord]
    omega

/-- Two doubles that are both nearest would both be even, and the one in between would be nearer. -/
theorem RoundsTo.ordinal_le (hx : RoundsTo q x) (hy : RoundsTo q y) (hxf : x.isFinite)
    (hyf : y.isFinite) : y.ordinal ≤ x.ordinal := by
  by_contra hnot
  have hord : x.ordinal < y.ordinal := not_le.mp hnot
  have hlt : x.toRat < y.toRat := toRat_lt_iff.mpr hord
  have htie : |y.toRat - q| = |x.toRat - q| := le_antisymm (hy.le hyf x hxf) (hx.le hxf y hyf)
  have hxe := hx.even hxf y hyf hlt.ne' htie
  have hye := hy.even hyf x hxf hlt.ne htie.symm
  obtain ⟨z, hzf, hxz, hzy⟩ := exists_toRat_between hxf hyf hxe hye hord
  have hnear := hx.le hxf z hzf
  rcases abs_eq_abs.mp htie with h | h
  · linarith
  · -- the number is the middle of the two
    have hz : |z.toRat - q| < q - x.toRat := abs_lt.mpr ⟨by linarith, by linarith⟩
    rw [abs_of_neg (by linarith : x.toRat - q < 0)] at hnear
    linarith

/-- **A number is rounded to one double only.** -/
theorem RoundsTo.unique (hx : RoundsTo q x) (hy : RoundsTo q y) : x = y := by
  refine eq_of_magnitude (by rw [hx.negative_eq, hy.negative_eq]) ?_
  have hiff : x.isFinite ↔ y.isFinite := by rw [hx.isFinite_iff, hy.isFinite_iff]
  by_cases hxf : x.isFinite
  · have hyf := hiff.mp hxf
    rw [← natAbs_ordinal, ← natAbs_ordinal,
      le_antisymm (hy.ordinal_le hx hyf hxf) (hx.ordinal_le hy hxf hyf)]
  · have hyf := mt hiff.mpr hxf
    have hxn := hx.not_isNaN
    have hyn := hy.not_isNaN
    rw [isFinite_iff_magnitude] at hxf hyf
    rw [isNaN, decide_eq_true_eq] at hxn hyn
    omega

/-- A number from the bound on is rounded to the positive infinity. -/
theorem roundsTo_infinity (h : overflowBound ≤ q) : RoundsTo q (infinity false) := by
  have hq : 0 < q := (one_pos.trans one_lt_overflowBound).trans_le h
  have hfin : ¬ (infinity false).isFinite := by decide
  refine ⟨by decide, ?_, iff_of_false hfin ?_, fun h => absurd h hfin, fun h => absurd h hfin⟩
  · rw [decide_eq_false (not_lt.mpr hq.le)]
    decide
  · rw [abs_of_pos hq, not_lt]
    exact h

theorem roundsTo_iff : RoundsTo q x ↔ x = ofRat q := by
  constructor
  · intro h
    exact h.unique (roundsTo_ofRat q)
  · rintro rfl
    exact roundsTo_ofRat q

/-! ### Doubles are not changed -/

/-- **What is a magnitude already is not changed** by rounding. -/
theorem roundMagnitude_unitsOfMagnitude (h : m < infinityOrdinal) :
    roundMagnitude (unitsOfMagnitude m) 1 = m := by
  have hle := (isNearestMagnitude_unboundedMagnitude (unitsOfMagnitude m) one_pos).le m
  have heq : unboundedMagnitude (unitsOfMagnitude m) 1 = m := by
    refine strictMono_unitsOfMagnitude.injective ?_
    simp only [offset] at hle
    omega
  rw [roundMagnitude_eq, heq, if_neg (by omega)]

end Binary64

end ExactNumerics
