import ExactNumerics.Binary64.Spacing
import ExactNumerics.Failure

/-!
# Vectors of doubles

A flonum vector is an array of doubles whose length never changes. Pointwise operations take
vectors of one length and give a new vector.

## Main definitions

* `FlonumVector`: the vectors.
* `FlonumVector.sameLengths`: the check in front of every pointwise operation.
* `FlonumVector.map₂`, `FlonumVector.compare`: pointwise operations on two vectors.
* `FlonumVector.same`: equality in which a NaN equals a NaN.
* `FlonumVector.get`, `FlonumVector.set`, `FlonumVector.fill`.
-/

namespace ExactNumerics

/-- A vector of doubles. -/
abbrev FlonumVector := Array Binary64

namespace FlonumVector

/-! ### Pointwise operations -/

/-- Whether all vectors have the length of the first. -/
def sameLengths (operation : String) (vs : List FlonumVector) : Except Failure Unit :=
  let lengths := vs.map Array.size
  if lengths.all (· == lengths.headD 0) then .ok ()
  else .error (.lengthMismatch operation lengths)

/-- Applies an operation to the elements at equal places. -/
def map₂ (operation : String) (f : Binary64 → Binary64 → Binary64) (v w : FlonumVector) :
    Except Failure FlonumVector := do
  sameLengths operation [v, w]
  return Array.zipWith f v w

/-- Applies a test to the elements at equal places. -/
def compare (operation : String) (f : Binary64 → Binary64 → Bool) (v w : FlonumVector) :
    Except Failure (List Bool) := do
  sameLengths operation [v, w]
  return (Array.zipWith f v w).toList

/-- The vectors have equal lengths, and at each place equal numbers or two NaNs. -/
def same (v w : FlonumVector) : Bool :=
  v.size == w.size && (Array.zipWith (fun x y => x.eq y || (x.isNaN && y.isNaN)) v w).all id

/-! ### Elements -/

/-- Whether an index is one of a vector of the given length. -/
def checkIndex (operation : String) (length : Nat) (i : Int) : Except Failure Nat :=
  if 0 ≤ i && i < length then .ok i.toNat else .error (.indexOutside operation i length)

/-- The element at an index. -/
def get (v : FlonumVector) (i : Int) : Except Failure Binary64 :=
  return v.getD (← checkIndex "flvector_ref" v.size i) default

/-- The vector with the element at an index replaced. -/
def set (v : FlonumVector) (i : Int) (x : Binary64) : Except Failure FlonumVector :=
  return v.setIfInBounds (← checkIndex "flvector_set" v.size i) x

/-- The vector with every element replaced. -/
def fill (v : FlonumVector) (x : Binary64) : FlonumVector := v.map fun _ => x

end FlonumVector

end ExactNumerics
