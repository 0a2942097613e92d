import ExactNumerics.Value.Operand

/-!
# Equality of values

Numbers of all kinds are compared by their exact value, and the truth values count as `1` and `0`.
A power equals the tuple of its base and exponent, but a list equals no tuple.
Vectors are equal when a NaN may equal a NaN; objects of a session are equal to themselves only.

## Main definitions

* `Value.equals`: the comparison.
-/

namespace ExactNumerics

namespace Value

/-- Exact equality of two numbers. -/
def sameNumber (v w : Value) : Bool :=
  match v.quantity, w.quantity with
  | .ok x, .ok y => !x.isNaN && !y.isNaN && x.agrees y
  | _, _ => false

/-- The fields of two settings are equal. -/
def sameSettings (s t : Settings) : Bool :=
  s.smallPrimeLimit == t.smallPrimeLimit && s.tolerance.eq t.tolerance &&
    s.factorialTableSize == t.factorialTableSize &&
    s.simpleFactorialCutoff == t.simpleFactorialCutoff &&
    s.trialDivisionLimit == t.trialDivisionLimit && s.splitAttempts == t.splitAttempts

mutual

/-- Whether two values are equal. -/
def equals : Value → Value → Bool
  | null, null => true
  | text s, text t => s == t
  | bytes b, bytes c => b == c
  | list vs, list ws => equalsList vs ws
  | tuple vs, tuple ws => equalsList vs ws
  | power b e, power c f => equals b c && equals e f
  | power b e, tuple [c, f] => equals b c && equals e f
  | tuple [b, e], power c f => equals b c && equals e f
  | vector v _, vector w _ => v.same w
  | verdict v, verdict w => v = w
  | settings s, settings t => sameSettings s t
  | table c _, table d _ => c == d
  | source c, source d => c == d
  | v, w => sameNumber v w

/-- Whether two lists have equal items. -/
def equalsList : List Value → List Value → Bool
  | [], [] => true
  | v :: vs, w :: ws => equals v w && equalsList vs ws
  | _, _ => false

end

end Value

end ExactNumerics
