import ExactNumerics.Value.Operand

/-!
# Nested lists

A nested list of numbers has a shape when all lists at the same depth have the same length; a bare
number has the empty shape. Tuples count as lists. Only lists of one dimension make a vector.

Vectors can be nested in lists as well, and a vector that is stored in a cell is still in that cell
when it is in a list.

## Main definitions

* `Value.shape?`: the shape of a nested list.
* `Value.leaves`: its numbers in order.
* `Value.toVector`: the vector of a list of numbers.
* `Value.mapVectors`: a value with every vector in it replaced.
-/

namespace ExactNumerics

namespace Value

mutual

/-- The lengths of a nested list at each depth, if they are the same everywhere. -/
def shape? : Value → Option (List Nat)
  | list vs | tuple vs => do
    match ← shapes? vs with
    | none => some [0]
    | some s => some (vs.length :: s)
  | power b e => do
    let s ← shape? b
    if s = (← shape? e) then some (2 :: s) else none
  | vector v _ => some [v.size]
  | _ => some []

/-- The shape that all items share, or `none` inside if there is no item. -/
def shapes? : List Value → Option (Option (List Nat))
  | [] => some none
  | v :: vs => do
    let s ← shape? v
    match ← shapes? vs with
    | none => some (some s)
    | some t => if s = t then some (some s) else none

end

mutual

/-- The items of a nested list that are not lists themselves. -/
def leaves : Value → List Value
  | list vs | tuple vs => leavesOf vs
  | power b e => leaves b ++ leaves e
  | vector v _ => v.toList.map .double
  | v => [v]

/-- The leaves of some values in order. -/
def leavesOf : List Value → List Value
  | [] => []
  | v :: vs => leaves v ++ leavesOf vs

end

/-- The vector of a list of numbers. -/
def toVector (v : Value) : Except Failure FlonumVector := do
  match v.shape? with
  | none => badValue
  | some shape =>
    let xs ← v.leaves.mapM element
    if shape.length = 1 then return xs.toArray else throw (.notOneDimensional shape)

/-! ### Vectors inside -/

mutual

/-- A value with every vector in it, and its cell, replaced. -/
def mapVectors (f : FlonumVector → Option Nat → FlonumVector × Option Nat) : Value → Value
  | vector v cell => vector (f v cell).1 (f v cell).2
  | list vs => list (mapVectorsAll f vs)
  | tuple vs => tuple (mapVectorsAll f vs)
  | power b e => power (mapVectors f b) (mapVectors f e)
  | v => v

/-- Some values with every vector in them, and its cell, replaced. -/
def mapVectorsAll (f : FlonumVector → Option Nat → FlonumVector × Option Nat) :
    List Value → List Value
  | [] => []
  | v :: vs => mapVectors f v :: mapVectorsAll f vs

end

/-- A value with copies of the vectors in it, which are in no cell. -/
def unstored : Value → Value := mapVectors fun v _ => (v, none)

/-- A value after the vector in a cell was overwritten. -/
def renewed (cell : Nat) (contents : FlonumVector) : Value → Value :=
  mapVectors fun v c => (if c = some cell then contents else v, c)

/-- A value of which only the cells before the given one are known. A vector in another one counts
as in none. -/
def known (cells : Nat) : Value → Value := mapVectors fun v c => (v, c.filter (· < cells))

end Value

end ExactNumerics
