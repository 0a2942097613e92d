import ExactNumerics.Integer.Bezout

/-!
# Residues modulo a positive number

The residues modulo `n` are represented by the numbers in `[0, n)`; modulo `1` there is only `0`.

## Main definitions

* `modularPower a e n`: `a ^ e` modulo `n`, by squaring and multiplying.
* `modularInverse? a n`: the inverse of `a`, if it has one.
* `Residues`: a positive modulus, with the operations of its ring: `reduce`, `add`, `sub`, `neg`,
  `mul`, `pow`, `inv?`, `div`, `equal`.
-/

namespace ExactNumerics

/-- The representative in `[0, n)` of an integer, for a positive `n`. -/
def residue (a : Int) (n : Nat) : Nat := (a % n).toNat

/-! ### Powers and inverses -/

/-- Multiplies `result` by `base ^ e` modulo `n`, one binary digit of `e` at a time. -/
def powerDigits (n result base e : Nat) : Nat :=
  if e = 0 then result
  else powerDigits n (if e % 2 = 1 then result * base % n else result) (base * base % n) (e / 2)
termination_by e

/-- `a ^ e` modulo a positive `n`. -/
def modularPower (a : Int) (e n : Nat) : Nat := powerDigits n (1 % n) (residue a n) e

/-- The `b` in `[0, n)` with `a * b` congruent to `1` modulo a positive `n`, if there is one. -/
def modularInverse? (a : Int) (n : Nat) : Option Nat :=
  if Int.gcd a n ≠ 1 then none else some (residue (bezoutPair a n).1 n)

/-- The inverse of `a`, or the failure of the operation that needs it. -/
def modularInverse (operation : String) (a : Int) (n : Nat) : Except Failure Nat :=
  match modularInverse? a n with
  | some b => .ok b
  | none => .error (.notInvertible operation a n)

/-! ### The ring -/

/-- The ring of residues modulo a positive number. -/
structure Residues where
  /-- The modulus. -/
  modulus : Nat
  /-- A modulus is positive. -/
  modulus_pos : 0 < modulus

namespace Residues

variable (z : Residues)

/-- The residue of an integer. -/
def reduce (a : Int) : Nat := residue a z.modulus

/-- The sum of any number of integers. -/
def add (xs : List Int) : Nat := xs.foldl (fun total x => (total + z.reduce x) % z.modulus) 0

/-- The negative of an integer. -/
def neg (a : Int) : Nat := residue (-(z.reduce a : Int)) z.modulus

/-- The first integer less all the others; with no others, its negative. -/
def sub (a : Int) (bs : List Int) : Nat :=
  if bs.isEmpty then z.neg a else residue ((z.reduce a : Int) - z.add bs) z.modulus

/-- The product of any number of integers. -/
def mul (xs : List Int) : Nat :=
  xs.foldl (fun product x => product * z.reduce x % z.modulus) (1 % z.modulus)

/-- The inverse of an integer, if it is coprime to the modulus. -/
def inv? (a : Int) : Option Nat := modularInverse? a z.modulus

/-- A power; a negative exponent raises the inverse. -/
def pow (a e : Int) : Except Failure Nat :=
  if e < 0 then do
    let b ← modularInverse "modular_expt" a z.modulus
    return modularPower b e.natAbs z.modulus
  else .ok (modularPower a e.natAbs z.modulus)

/-- The quotient: the first integer times the inverse of the second. -/
def div (a b : Int) : Except Failure Nat := do
  let c ← modularInverse "modular_div" b z.modulus
  return z.mul [a, c]

/-- Whether two integers have the same residue. -/
def equal (a b : Int) : Bool := z.reduce a == z.reduce b

end Residues

end ExactNumerics
