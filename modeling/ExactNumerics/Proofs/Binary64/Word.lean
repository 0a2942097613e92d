import ExactNumerics.Binary64.Basic
import Mathlib.Data.EReal.Basic
import Mathlib.Data.EReal.Operations
import Mathlib.Order.Monotone.Basic

/-!
# The value of a word

A word of 64 bits has three fields: a sign, an exponent and a fraction. The format defines the
value of a word from these fields, as an extended real number (`Binary64.toEReal`). The definitions
of this library read a word in another way: the fields below the sign together are one natural
number, the magnitude, and a finite magnitude stands for a whole number of units. Here the two
readings are shown to be the same.

What everything about the order of doubles rests on is that the units grow strictly with the
magnitude. Inside a binade one more step adds one spacing; the last step of a binade leads from
`2 ^ 53 - 1` spacings to `2 ^ 52` spacings of twice the size, which is one more.

## Main definitions

* `Binary64.exponentField`, `Binary64.fractionField` — the fields below the sign
* `Binary64.toEReal` — the value, decoded from the fields

## Main results

* `Binary64.ofMagnitude_magnitude`, `Binary64.magnitude_ofMagnitude`,
  `Binary64.negative_ofMagnitude` — a word is a sign and a magnitude
* `Binary64.strictMono_unitsOfMagnitude` — the units grow with the magnitude
* `Binary64.toEReal_of_isFinite` — the value of a finite word is its number of units
-/

namespace ExactNumerics

namespace Binary64

variable {x y : Binary64} {s : Bool} {m : ℕ}

/-! ### A sign and a magnitude -/

theorem magnitude_lt (x : Binary64) : x.magnitude < 2 ^ 63 := Nat.mod_lt _ (by decide)

/-- The sign bit stands above the magnitude. -/
theorem toNat_bits (x : Binary64) :
    x.bits.toNat = (if x.negative then 2 ^ 63 else 0) + x.magnitude := by
  have hlt := x.bits.toNat_lt
  simp only [negative, magnitude, decide_eq_true_eq]
  split <;> omega

/-- A word with a magnitude of 63 bits is not cut. -/
theorem toNat_bits_ofMagnitude (h : m < 2 ^ 63) :
    (ofMagnitude s m).bits.toNat = (if s then 2 ^ 63 else 0) + m := by
  simp only [ofMagnitude, UInt64.toNat_ofNat']
  cases s
  · simp only [Bool.false_eq_true, if_false]
    omega
  · simp only [if_true]
    omega

@[simp]
theorem magnitude_ofMagnitude (h : m < 2 ^ 63) : (ofMagnitude s m).magnitude = m := by
  rw [magnitude, toNat_bits_ofMagnitude h]
  split <;> omega

@[simp]
theorem negative_ofMagnitude (h : m < 2 ^ 63) : (ofMagnitude s m).negative = s := by
  rw [negative, toNat_bits_ofMagnitude h]
  cases s
  · exact decide_eq_false (by simp only [Bool.false_eq_true, if_false]; omega)
  · exact decide_eq_true (by simp only [if_true]; omega)

/-- A word is given by its sign and its magnitude. -/
theorem eq_of_magnitude (hs : x.negative = y.negative) (hm : x.magnitude = y.magnitude) :
    x = y := by
  have hbits : x.bits.toNat = y.bits.toNat := by rw [toNat_bits, toNat_bits, hs, hm]
  cases x
  cases y
  exact congrArg _ (UInt64.toNat_inj.mp hbits)

/-- The eleven bits of the exponent. -/
def exponentField (x : Binary64) : ℕ := x.bits.toNat / 2 ^ 52 % 2 ^ 11

/-- The fifty-two bits of the fraction. -/
def fractionField (x : Binary64) : ℕ := x.bits.toNat % 2 ^ 52

theorem fractionField_lt (x : Binary64) : x.fractionField < 2 ^ 52 := Nat.mod_lt _ (by decide)

/-- The magnitude is made of the two fields. -/
theorem magnitude_eq (x : Binary64) :
    x.magnitude = x.exponentField * 2 ^ 52 + x.fractionField := by
  simp only [magnitude, exponentField, fractionField]
  omega

theorem isFinite_iff : x.isFinite ↔ x.exponentField < 2047 := by
  have hf := x.fractionField_lt
  simp only [isFinite, magnitude_eq, infinityOrdinal, decide_eq_true_eq]
  omega

/-- A NaN has the exponent of infinity and a fraction. -/
theorem isNaN_iff : x.isNaN ↔ x.exponentField = 2047 ∧ x.fractionField ≠ 0 := by
  have hf := x.fractionField_lt
  have hm := x.magnitude_lt
  rw [magnitude_eq] at hm
  simp only [isNaN, magnitude_eq, infinityOrdinal, decide_eq_true_eq]
  omega

/-! ### Units -/

/-- One more step of magnitude adds one spacing, also from one binade to the next. -/
theorem unitsOfMagnitude_succ (m : ℕ) :
    unitsOfMagnitude (m + 1) = unitsOfMagnitude m + 2 ^ spacing m := by
  -- the numerator counts spacings, and it starts a binade at `2 ^ 52`
  have hle : spacing m * 2 ^ 52 ≤ m := by
    simp only [spacing]
    omega
  by_cases hlast : spacing (m + 1) = spacing m
  · have hnum : m + 1 - spacing m * 2 ^ 52 = (m - spacing m * 2 ^ 52) + 1 := by omega
    rw [unitsOfMagnitude, unitsOfMagnitude, hlast, hnum, Nat.succ_mul]
  · have hnext : spacing (m + 1) = spacing m + 1 := by
      simp only [spacing] at hlast ⊢
      omega
    have hnum : m + 1 - (spacing m + 1) * 2 ^ 52 = 2 ^ 52 := by
      simp only [spacing] at hlast hnext ⊢
      omega
    have hold : m - spacing m * 2 ^ 52 + 1 = 2 ^ 53 := by omega
    calc unitsOfMagnitude (m + 1) = 2 ^ 52 * 2 ^ (spacing m + 1) := by
          rw [unitsOfMagnitude, hnext, hnum]
      _ = 2 ^ 53 * 2 ^ spacing m := by ring
      _ = (m - spacing m * 2 ^ 52) * 2 ^ spacing m + 2 ^ spacing m := by
          rw [← hold, Nat.succ_mul]

/-- **The units grow with the magnitude.** -/
theorem strictMono_unitsOfMagnitude : StrictMono unitsOfMagnitude := by
  refine strictMono_nat_of_lt_succ fun m => ?_
  rw [unitsOfMagnitude_succ]
  exact Nat.lt_add_of_pos_right (Nat.two_pow_pos _)

@[simp]
theorem unitsOfMagnitude_zero : unitsOfMagnitude 0 = 0 := by
  simp [unitsOfMagnitude]

theorem unitsPerOne_pos : 0 < unitsPerOne := by
  rw [unitsPerOne]
  positivity

theorem natCast_unitsPerOne : (unitsPerOne : ℝ) = 2 ^ (1074 : ℤ) := by
  have hexp : (1074 : ℤ) = ((1074 : ℕ) : ℤ) := rfl
  rw [unitsPerOne, hexp]
  -- the power itself must not be evaluated
  generalize 1074 = e
  rw [zpow_natCast, Nat.cast_pow, Nat.cast_two]

/-! ### The value -/

/-- The absolute value of a finite word. Words with the exponent zero have no hidden bit. -/
noncomputable def decodedMagnitude (x : Binary64) : ℝ :=
  if x.exponentField = 0 then x.fractionField * 2 ^ (-1074 : ℤ)
  else (2 ^ 52 + x.fractionField) * 2 ^ ((x.exponentField : ℤ) - 1075)

/-- The value of a word that is no NaN, as the format defines it. -/
noncomputable def toEReal (x : Binary64) : EReal :=
  let a : EReal := if x.exponentField = 2047 then ⊤ else (x.decodedMagnitude : ℝ)
  if x.negative then -a else a

/-- The fields and the magnitude stand for the same number of units. -/
theorem decodedMagnitude_eq (x : Binary64) :
    x.decodedMagnitude = (unitsOfMagnitude x.magnitude : ℝ) / unitsPerOne := by
  have hf := x.fractionField_lt
  rw [natCast_unitsPerOne, decodedMagnitude]
  by_cases he : x.exponentField = 0
  · have hspacing : spacing x.magnitude = 0 := by
      rw [spacing, magnitude_eq]
      omega
    have hunits : unitsOfMagnitude x.magnitude = x.fractionField := by
      rw [unitsOfMagnitude, hspacing, magnitude_eq, he]
      simp
    rw [if_pos he, hunits, zpow_neg, div_eq_mul_inv]
  · have hspacing : spacing x.magnitude = x.exponentField - 1 := by
      rw [spacing, magnitude_eq]
      omega
    have hnum : x.magnitude - (x.exponentField - 1) * 2 ^ 52 = 2 ^ 52 + x.fractionField := by
      rw [magnitude_eq]
      omega
    have hunits : (unitsOfMagnitude x.magnitude : ℝ) =
        (2 ^ 52 + x.fractionField) * 2 ^ ((x.exponentField : ℤ) - 1) := by
      have hexp : (x.exponentField : ℤ) - 1 = ((x.exponentField - 1 : ℕ) : ℤ) := by omega
      rw [unitsOfMagnitude, hspacing, hnum, hexp, zpow_natCast]
      push_cast
      ring
    rw [if_neg he, hunits, mul_div_assoc, ← zpow_sub₀ (by norm_num : (2 : ℝ) ≠ 0)]
    congr 2
    ring

/-- **The value of a finite word** is its number of units. -/
theorem toEReal_of_isFinite (h : x.isFinite) : x.toEReal = ((x.toRat : ℝ) : EReal) := by
  have hne : x.exponentField ≠ 2047 := (isFinite_iff.mp h).ne
  have hrat : (x.toRat : ℝ) = (x.units : ℝ) / unitsPerOne := by
    rw [toRat, Rat.mkRat_eq_div]
    push_cast
    ring
  rw [toEReal, if_neg hne, hrat, units, decodedMagnitude_eq]
  split
  · rw [← EReal.coe_neg, Int.cast_neg, Int.cast_natCast, neg_div]
  · rw [Int.cast_natCast]

end Binary64

end ExactNumerics
