import ExactNumerics.Binary64.Arithmetic

/-!
# Settings

The numbers that tune the algorithms. Their bounds are part of the type, so whatever settings are
installed, a prime table has its first two entries, the table of factorials is not empty, and
splitting a composite is tried at least once.

## Main definitions

* `Settings`: the six numbers with their bounds and defaults.
* `Settings.admitsTolerance`: the bounds of the tolerance.
-/

namespace ExactNumerics

namespace Settings

/-- A tolerance lies strictly between zero and one, so a NaN is none. -/
def admitsTolerance (t : Binary64) : Bool := (Binary64.zero false).lt t && t.lt Binary64.one

/-- The double nearest to `1e-7`. -/
def defaultTolerance : Binary64 := ⟨0x3E7AD7F29ABCAF48⟩

end Settings

/-- The numbers that tune the algorithms. -/
structure Settings where
  /-- The size of the default prime table. -/
  smallPrimeLimit : Nat := 1000000
  /-- The accepted probability that a composite passes for a prime. -/
  tolerance : Binary64 := Settings.defaultTolerance
  /-- How many factorials are tabulated. -/
  factorialTableSize : Nat := 171
  /-- Below this argument a factorial is accumulated from the end of the table. -/
  simpleFactorialCutoff : Nat := 244
  /-- Numbers below this one are factored by trial division. -/
  trialDivisionLimit : Nat := 1000000
  /-- How often the splitting of a composite is tried. -/
  splitAttempts : Nat := 64
  /-- The table holds `0` and `1`. -/
  two_le_smallPrimeLimit : 2 ≤ smallPrimeLimit := by decide
  /-- The tolerance is within its bounds. -/
  tolerance_admitted : Settings.admitsTolerance tolerance = true := by decide
  /-- The factorial of zero is tabulated. -/
  factorialTableSize_pos : 0 < factorialTableSize := by decide
  /-- Splitting is tried at least once. -/
  splitAttempts_pos : 0 < splitAttempts := by decide

instance : Inhabited Settings := ⟨{}⟩

end ExactNumerics
