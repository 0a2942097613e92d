import ExactNumerics.Binary64.Basic

/-!
# Named doubles

The constants of the format, and the doubles nearest to some mathematical constants. Those that
are quotients or halves of other doubles are the rounded results.

## Main definitions

* `Binary64.constants`: the doubles with their names.
-/

namespace ExactNumerics

namespace Binary64

/-- The double with the given bits. -/
def ofBits (bits : UInt64) : Binary64 := ⟨bits⟩

/-- The distance from one to the next double above. -/
def epsilon : Binary64 := ofBits 0x3CB0000000000000

/-- The smallest positive double with a full significand. -/
def leastNormal : Binary64 := ofBits 0x0010000000000000

/-- The smallest positive double. -/
def leastSubnormal : Binary64 := ofBits 1

/-- The largest double below the smallest one with a full significand. -/
def greatestSubnormal : Binary64 := ofBits 0x000FFFFFFFFFFFFF

/-- The circumference of a circle of diameter one. -/
def pi : Binary64 := ofBits 0x400921FB54442D18

/-- The base of the natural logarithm. -/
def e : Binary64 := ofBits 0x4005BF0A8B145769

/-- The golden ratio. -/
def phi : Binary64 := ofBits 0x3FF9E3779B97F4A8

/-- Euler's constant. -/
def eulerGamma : Binary64 := ofBits 0x3FE2788CFC6FB619

/-- The natural logarithm of two. -/
def ln2 : Binary64 := ofBits 0x3FE62E42FEFA39EF

/-- The natural logarithm of ten. -/
def ln10 : Binary64 := ofBits 0x40026BB1BBB55516

/-- The reciprocal of the natural logarithm of two. -/
def log2e : Binary64 := ofBits 0x3FF71547652B82FE

/-- The reciprocal of the natural logarithm of ten. -/
def log10e : Binary64 := ofBits 0x3FDBCB7B1526E50D

/-- The square root of two. -/
def sqrt2 : Binary64 := ofBits 0x3FF6A09E667F3BCD

/-- The named doubles, sorted by their names. -/
def constants : List (String × Binary64) :=
  [("E", e), ("EPSILON", epsilon), ("EULER_GAMMA", eulerGamma), ("INF", infinity false),
   ("LN10", ln10), ("LN2", ln2), ("LOG10_E", log10e), ("LOG2_E", log2e), ("MAX", greatest),
   ("MAX_SUBNORMAL", greatestSubnormal), ("MIN_NORMAL", leastNormal),
   ("MIN_SUBNORMAL", leastSubnormal), ("NAN", nan), ("PHI", phi), ("PI", pi), ("SQRT2", sqrt2)]

end Binary64

end ExactNumerics
