/-!
# Doubles as words

An IEEE 754 double is a word of 64 bits: a sign bit above a *magnitude* of 63 bits. Read as a
natural number, the magnitude counts the doubles from `0.0` upwards, so it carries the whole
order of the non-negative doubles; the magnitude of infinity is `infinityOrdinal`, and every
larger one is a NaN.

Every finite double is a whole number of *units*, one unit being `2 ^ -1074`, the least positive
double. Exact arithmetic on doubles is therefore arithmetic on integers.

## Main definitions

* `Binary64`: a double, given by its bits.
* `Binary64.magnitude`, `Binary64.negative`, `Binary64.ofMagnitude`: the two halves of a word.
* `Binary64.ordinal`: the signed position of a double among all doubles.
* `Binary64.unitsOfMagnitude`, `Binary64.units`: the exact value in units.
-/

namespace ExactNumerics

-- powers of natural numbers are the ones of the core library
attribute [local instance (high)] instPowNat

/-- An IEEE 754 double, given by its 64 bits. -/
structure Binary64 where
  /-- The sign bit, eleven exponent bits and fifty-two fraction bits, from the top. -/
  bits : UInt64
  deriving DecidableEq

namespace Binary64

/-! ### The two halves of a word -/

/-- The magnitude of infinity: the number of steps from `0.0` to it. -/
def infinityOrdinal : Nat := 0x7FF0000000000000

/-- The word without its sign bit. -/
def magnitude (x : Binary64) : Nat := x.bits.toNat % 2 ^ (63 : Nat)

/-- The sign bit. -/
def negative (x : Binary64) : Bool := 2 ^ (63 : Nat) ≤ x.bits.toNat

/-- The word with the given sign bit and magnitude. -/
def ofMagnitude (negative : Bool) (m : Nat) : Binary64 :=
  ⟨UInt64.ofNat (if negative then 2 ^ (63 : Nat) + m else m)⟩

/-! ### Kinds of words -/

/-- Not a number. -/
def isNaN (x : Binary64) : Bool := infinityOrdinal < x.magnitude

/-- One of the two infinities. -/
def isInfinite (x : Binary64) : Bool := x.magnitude == infinityOrdinal

/-- Neither infinite nor a NaN. -/
def isFinite (x : Binary64) : Bool := x.magnitude < infinityOrdinal

/-- The quiet NaN with an empty payload. -/
def nan : Binary64 := ⟨0x7FF8000000000000⟩

/-- The infinity of the given sign. -/
def infinity (negative : Bool) : Binary64 := ofMagnitude negative infinityOrdinal

/-- The zero of the given sign. -/
def zero (negative : Bool) : Binary64 := ofMagnitude negative 0

/-- The largest finite double. -/
def greatest : Binary64 := ofMagnitude false (infinityOrdinal - 1)

/-- The double `1.0`. -/
def one : Binary64 := ofMagnitude false (1023 * 2 ^ (52 : Nat))

instance : Inhabited Binary64 := ⟨zero false⟩

/-! ### Position and exact value -/

/-- The signed number of steps from zero; both zeros are at `0`. -/
def ordinal (x : Binary64) : Int := if x.negative then -(x.magnitude : Int) else x.magnitude

/-- The double at a signed number of steps from zero. -/
def ofOrdinal (i : Int) : Binary64 := ofMagnitude (decide (i < 0)) i.natAbs

/-- How many times the spacing at this magnitude is the least spacing, as a power of two. The
subnormals and the first normal binade share the least spacing. -/
def spacing (m : Nat) : Nat := m / 2 ^ (52 : Nat) - 1

/-- The exact value of a finite magnitude, in units of `2 ^ -1074`. -/
def unitsOfMagnitude (m : Nat) : Nat := (m - spacing m * 2 ^ (52 : Nat)) * 2 ^ spacing m

/-- The exact value of a finite double, in units of `2 ^ -1074`. -/
def units (x : Binary64) : Int :=
  if x.negative then -(unitsOfMagnitude x.magnitude : Int) else unitsOfMagnitude x.magnitude

/-- The number of units in one, `2 ^ 1074`. -/
def unitsPerOne : Nat := 2 ^ (1074 : Nat)

/-- The exact value of a finite double as a rational number. -/
def toRat (x : Binary64) : Rat := mkRat x.units unitsPerOne

/-! ### Sign and order -/

/-- The absolute value: the same magnitude without the sign. -/
def abs (x : Binary64) : Binary64 := ofMagnitude false x.magnitude

/-- The double with the other sign. -/
def neg (x : Binary64) : Binary64 := ofMagnitude (!x.negative) x.magnitude

/-- The IEEE order: false whenever an operand is a NaN, and the two zeros are equal. -/
def lt (x y : Binary64) : Bool := !x.isNaN && !y.isNaN && x.ordinal < y.ordinal

/-- The IEEE order `≤`: false whenever an operand is a NaN. -/
def le (x y : Binary64) : Bool := !x.isNaN && !y.isNaN && x.ordinal ≤ y.ordinal

/-- IEEE equality: a NaN equals nothing, and the two zeros are equal. -/
def eq (x y : Binary64) : Bool := !x.isNaN && !y.isNaN && x.ordinal == y.ordinal

end Binary64

end ExactNumerics
