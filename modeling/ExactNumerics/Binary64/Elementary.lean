import ExactNumerics.Binary64.Arithmetic

/-!
# Elementary functions

Logarithms, exponentials and circular functions of doubles. They are those of the platform, so
their last bits are not specified, and nothing else is built on them.

## Main definitions

* `Binary64.log`, `exp`, `sin`, `cos`, `tan`, `asin`, `acos`, `atan`, `expt`.
* `Binary64.logNat`: the logarithm of a natural number, also one beyond the doubles.
-/

namespace ExactNumerics

-- powers of natural numbers are the ones of the core library
attribute [local instance (high)] instPowNat

namespace Binary64

/-- The platform's number with the same bits. -/
def toFloat (x : Binary64) : Float := Float.ofBits x.bits

/-- The double with the bits of a platform number. -/
def ofFloat (x : Float) : Binary64 := ⟨x.toBits⟩

/-- The natural logarithm. -/
def log (x : Binary64) : Binary64 := ofFloat x.toFloat.log

/-- The exponential function. -/
def exp (x : Binary64) : Binary64 := ofFloat x.toFloat.exp

/-- The sine. -/
def sin (x : Binary64) : Binary64 := ofFloat x.toFloat.sin

/-- The cosine. -/
def cos (x : Binary64) : Binary64 := ofFloat x.toFloat.cos

/-- The tangent. -/
def tan (x : Binary64) : Binary64 := ofFloat x.toFloat.tan

/-- The arc sine. -/
def asin (x : Binary64) : Binary64 := ofFloat x.toFloat.asin

/-- The arc cosine. -/
def acos (x : Binary64) : Binary64 := ofFloat x.toFloat.acos

/-- The arc tangent. -/
def atan (x : Binary64) : Binary64 := ofFloat x.toFloat.atan

/-- The power of a base to an exponent. -/
def expt (x y : Binary64) : Binary64 := ofFloat (x.toFloat.pow y.toFloat)

/-- The natural logarithm of a positive natural number. One beyond the doubles is divided by a
power of two first, whose logarithm is added. -/
def logNat (n : Nat) : Binary64 :=
  let shift := Nat.log2 n - 1000
  let scaled := log (ofRat (mkRat n (2 ^ shift)))
  if shift = 0 then scaled
  else add scaled (mul (ofRat shift) (log (ofRat 2)))

end Binary64

end ExactNumerics
