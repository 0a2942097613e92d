import ExactNumerics.Flonum.Vector

/-!
# Ranges of a vector

Three ways to take the elements from a start to an end: a copy, whose bounds are checked; a slice,
whose bounds are clamped and which may step; and a copy into another vector, which checks the
bounds on both sides and then moves the elements one by one.

When source and destination are one vector and overlap, moving starts at the end that keeps every
element from being overwritten before it is read.

## Main definitions

* `FlonumVector.checkBounds`: the checks that all checked ranges share.
* `FlonumVector.copy`: the elements of a checked range.
* `FlonumVector.slice`: the elements of a clamped, stepping range.
* `FlonumVector.move`: the unchecked move, element by element.
* `FlonumVector.copyRange`: the checked copy into a vector.
-/

namespace ExactNumerics

namespace FlonumVector

/-! ### Checked ranges -/

/-- Whether a bound lies between zero and the length. -/
def checkBound (operation what name : String) (length : Nat) (i : Int) : Except Failure Unit :=
  if i < 0 then .error (.boundNegative operation what name i)
  else if length < i then .error (.boundBeyond operation what name i length)
  else .ok ()

/-- Whether `start` and `stop` bound a range of a vector of the given length. -/
def checkBounds (operation what : String) (length : Nat) (start stop : Int) :
    Except Failure Unit := do
  checkBound operation what "start" length start
  checkBound operation what "end" length stop
  if stop < start then throw (.boundsReversed operation what start stop)

/-- The elements from `start` up to `stop`. -/
def copy (v : FlonumVector) (start stop : Int) : Except Failure FlonumVector := do
  checkBounds "flvector_copy" "vector" v.size start stop
  return v.extract start.toNat stop.toNat

/-! ### Clamped ranges -/

/-- A bound of a slice: counted from the end if negative, then moved into `[lowest, highest]`. -/
def clampBound (length : Nat) (lowest highest : Int) (i : Int) : Int :=
  let j := if i < 0 then i + length else i
  if j < lowest then lowest else if highest < j then highest else j

/-- The numbers `first`, `first + step`, … that lie before `last` in the direction of the step. -/
def progression (first last step : Int) : List Nat :=
  let count :=
    if 0 < step then (last - first + step - 1) / step else (first - last - step - 1) / -step
  (List.range count.toNat).map fun (k : Nat) => (first + step * k).toNat

/-- The indices of a slice, with omitted bounds meaning all of it, for a step other than zero. -/
def sliceIndices (length : Nat) (start stop : Option Int) (step : Int) : List Nat :=
  if 0 < step then
    let bound := clampBound length 0 length
    progression ((start.map bound).getD 0) ((stop.map bound).getD length) step
  else
    let bound := clampBound length (-1) (length - 1)
    progression ((start.map bound).getD (length - 1)) ((stop.map bound).getD (-1)) step

/-- The elements of a slice; a step of zero is refused. -/
def slice (v : FlonumVector) (start stop : Option Int) (step : Int) :
    Except Failure FlonumVector :=
  if step = 0 then .error (.unworded .value)
  else .ok ((sliceIndices v.size start stop step).map fun i => v.getD i default).toArray

/-! ### Moving elements -/

/-- Where the moved elements come from. -/
inductive Origin where
  /-- The destination itself. -/
  | same
  /-- Another vector. -/
  | other (v : FlonumVector)

/-- The element of the source at an index, at a moment when the destination is `dest`. -/
def Origin.read (origin : Origin) (dest : FlonumVector) (i : Nat) : Binary64 :=
  match origin with
  | .same => dest.getD i default
  | .other v => v.getD i default

/-- The number of elements of the source. -/
def Origin.size (origin : Origin) (dest : FlonumVector) : Nat :=
  match origin with
  | .same => dest.size
  | .other v => v.size

/-- Moves one element. -/
def moveOne (origin : Origin) (destStart srcStart : Nat) (dest : FlonumVector) (i : Nat) :
    FlonumVector :=
  dest.setIfInBounds (destStart + i) (origin.read dest (srcStart + i))

/-- Moves the elements from `srcStart` up to `srcEnd` to `destStart` and on, backwards when they
move up. The ranges are not checked. -/
def move (dest : FlonumVector) (destStart : Nat) (origin : Origin) (srcStart srcEnd : Nat) :
    FlonumVector :=
  let places := List.range (srcEnd - srcStart)
  let order := if srcStart < destStart then places.reverse else places
  order.foldl (moveOne origin destStart srcStart) dest

/-- Copies the elements from `srcStart` up to `srcEnd` into `dest` at `destStart`. -/
def copyRange (dest : FlonumVector) (destStart : Int) (origin : Origin) (srcStart srcEnd : Int) :
    Except Failure FlonumVector := do
  checkBounds "flvector_copy_range" "source" (origin.size dest) srcStart srcEnd
  checkBounds "flvector_copy_range" "destination" dest.size destStart destStart
  if dest.size < destStart + (srcEnd - srcStart) then
    throw (.noRoom dest.size (srcEnd - srcStart) destStart)
  return move dest destStart.toNat origin srcStart.toNat srcEnd.toNat

end FlonumVector

end ExactNumerics
