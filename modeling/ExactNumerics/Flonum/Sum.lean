import ExactNumerics.Flonum.Vector

/-!
# Sums

The sum of a vector of finite doubles is its exact sum, rounded once, unless the expansion in
which the partial sums are kept leaves the range of the doubles on the way. Then it is the plain
sum, in which every addition is rounded. The plain sum of a long vector is that of its halves, and
within a block eight sums run side by side. The running sums carry the rounding error of each
partial sum along.

## Main definitions

* `FlonumVector.exactSum`: the exact sum in units.
* `FlonumVector.expansionOverflows`: whether a partial sum leaves the range.
* `FlonumVector.plainSum`: the plain sum.
* `FlonumVector.sum`: the sum.
* `FlonumVector.runningSums`: the compensated sums of the initial parts.
-/

namespace ExactNumerics

namespace FlonumVector

/-! ### The exact sum -/

/-- The exact sum of finite doubles, in units. -/
def exactSum (v : FlonumVector) : Int := v.foldl (fun total x => total + x.units) 0

/-- Adds `x` and `y` without an error: the rounded sum and what the rounding left over. -/
def twoSum (x y : Binary64) : Binary64 × Binary64 :=
  let (large, small) := if x.magnitude < y.magnitude then (y, x) else (x, y)
  let high := large.add small
  (high, small.sub (high.sub large))

/-- Adds `x` to a list of doubles of increasing magnitude, keeping the exact sum; `none` when a
rounded sum leaves the range. -/
def grow? (x : Binary64) : List Binary64 → Option (List Binary64)
  | [] => some (if x.magnitude = 0 then [] else [x])
  | y :: parts =>
    let (high, low) := twoSum x y
    if high.isFinite then
      (grow? high parts).map fun grown => if low.magnitude = 0 then grown else low :: grown
    else none

/-- Whether a partial sum of finite doubles leaves the range. -/
def expansionOverflows (v : FlonumVector) : Bool :=
  (v.foldl (fun parts x => parts.bind (grow? x)) (some [])).isNone

/-! ### Plain sums -/

/-- Adds the elements at some places, in that order, to what was added before. -/
def addAt (v : FlonumVector) (total : Binary64) (places : List Nat) : Binary64 :=
  places.foldl (fun total i => total.add (v.getD i default)) total

/-- The sum of every eighth element among `8 * rounds` elements, the first of which is at `i`. -/
def laneSum (v : FlonumVector) (i rounds : Nat) : Binary64 :=
  v.addAt (v.getD i default) ((List.range (rounds - 1)).map fun k => i + 8 * (k + 1))

/-- The plain sum of a block of `n ≥ 8` elements from `start` on: of eight sums side by side, and
then of the elements that are left over. -/
def blockSum (v : FlonumVector) (start n : Nat) : Binary64 :=
  let lane (j : Nat) : Binary64 := v.laneSum (start + j) (n / 8)
  let front := ((lane 0).add (lane 1)).add ((lane 2).add (lane 3))
  let back := ((lane 4).add (lane 5)).add ((lane 6).add (lane 7))
  v.addAt (front.add back) (List.range' (start + 8 * (n / 8)) (n % 8))

/-- The plain sum of `n` elements from `start` on. A part that is too long for a block is cut in two
at a multiple of eight. -/
def plainSumFrom (v : FlonumVector) (start n : Nat) : Binary64 :=
  if n < 8 then v.addAt (Binary64.zero false) (List.range' start n)
  else if n ≤ 128 then v.blockSum start n
  else
    let half := n / 2 / 8 * 8
    (plainSumFrom v start half).add (plainSumFrom v (start + half) (n - half))
termination_by n

/-- The plain sum. -/
def plainSum (v : FlonumVector) : Binary64 := v.plainSumFrom 0 v.size

/-! ### Sums -/

/-- The exact sum rounded once; the plain sum when an element is not finite or a partial sum
leaves the range. -/
def sum (v : FlonumVector) : Binary64 :=
  if v.all Binary64.isFinite && !expansionOverflows v then Binary64.ofUnits (exactSum v)
  else plainSum v

/-! ### Running sums -/

/-- The state of a compensated sum: the plain sum so far, and the errors collected. -/
structure Compensated where
  /-- The plain sum. -/
  total : Binary64 := Binary64.zero false
  /-- The sum of the rounding errors. -/
  compensation : Binary64 := Binary64.zero false

/-- Adds an element. The error of an addition is recovered from its larger operand; once a sum is
not finite no error is collected. -/
def Compensated.add (s : Compensated) (x : Binary64) : Compensated :=
  let t := s.total.add x
  if t.isFinite then
    let lost :=
      if x.magnitude ≤ s.total.magnitude then (s.total.sub t).add x else (x.sub t).add s.total
    ⟨t, s.compensation.add lost⟩
  else ⟨t, s.compensation⟩

/-- The sum that a state stands for. -/
def Compensated.value (s : Compensated) : Binary64 :=
  if s.total.isFinite then s.total.add s.compensation else s.total

/-- The compensated sums of the first elements, one for each element. -/
def runningSums (v : FlonumVector) : FlonumVector :=
  (v.foldl
    (fun (s, sums) x =>
      let s : Compensated := s.add x
      (s, sums.push s.value))
    (({} : Compensated), (#[] : Array Binary64))).2

end FlonumVector

end ExactNumerics
