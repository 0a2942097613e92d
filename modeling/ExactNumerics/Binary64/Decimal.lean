import ExactNumerics.Binary64.Rounding

/-!
# Doubles in decimal

A double is written in two ways: with the fewest digits that read back as the same double, or
with twelve significant digits. A decimal number is read as the double nearest to it. All three
compare exact naturals only.

## Main definitions

* `Decimal`: a natural number of digits times a power of ten.
* `Binary64.shortest`: the decimal with the fewest digits that rounds to a magnitude.
* `Binary64.toText`: the shortest decimal as text.
* `Binary64.toScientific`: twelve significant digits with an exponent.
* `Binary64.ofDecimal`: the double nearest to a decimal.
-/

namespace ExactNumerics

-- powers of natural numbers are the ones of the core library
attribute [local instance (high)] instPowNat

/-- The number `digits * 10 ^ exponent`. -/
structure Decimal where
  /-- All the digits, read as one natural number. -/
  digits : Nat
  /-- The power of ten that the last digit counts. -/
  exponent : Int
  deriving DecidableEq, Repr

/-- The decimal digits of a natural number, without leading zeros. -/
def decimalText (n : Nat) : String := toString n

/-- The number of decimal digits. -/
def decimalLength (n : Nat) : Nat := (decimalText n).length

namespace Decimal

/-- `n / d * 10 ^ e`, as a numerator and a denominator. -/
def scaleTen (n d : Nat) (e : Int) : Nat × Nat :=
  if 0 ≤ e then (n * 10 ^ e.toNat, d) else (n, d * 10 ^ (-e).toNat)

/-- The exponent of the leading digit of a positive quotient: the greatest `e` with
`10 ^ e ≤ n / d`. -/
def leadingExponent (n d : Nat) : Int :=
  let e : Int := (decimalLength n : Int) - decimalLength d
  let (n', d') := scaleTen n d (-e)
  if d' ≤ n' then e else e - 1

/-- The positive quotient `n / d` rounded to `count` significant digits, ties to even. -/
def ofQuotient (count n d : Nat) : Decimal :=
  let e := leadingExponent n d - (count - 1 : Nat)
  let (n', d') := scaleTen n d (-e)
  let m := nearestEven n' d'
  if m < 10 ^ count then ⟨m, e⟩ else ⟨m / 10, e + 1⟩

end Decimal

namespace Binary64

/-! ### The shortest decimal -/

/-- Of the two decimals with `count` digits next to `n / d`, the nearer one that lies between
`lo / d` and `hi / d`; the bounds themselves count when `closed`. -/
def neighbour? (count : Nat) (e : Int) (n lo hi d : Nat) (closed : Bool) : Option Decimal :=
  let g := e - (count - 1 : Nat)
  let (n', d') := Decimal.scaleTen n d (-g)
  let (lo', _) := Decimal.scaleTen lo d (-g)
  let (hi', _) := Decimal.scaleTen hi d (-g)
  let inside (c : Nat) : Bool :=
    if closed then lo' ≤ c * d' && c * d' ≤ hi' else lo' < c * d' && c * d' < hi'
  let below := n' / d'
  let nearest := nearestEven n' d'
  let other := if nearest = below then below + 1 else below
  if inside nearest then some ⟨nearest, g⟩ else if inside other then some ⟨other, g⟩ else none

/-- The first decimal found with `count`, `count + 1`, … digits. -/
def firstNeighbour (e : Int) (n lo hi d : Nat) (closed : Bool) : Nat → Nat → Decimal
  | 0, _ => ⟨0, 0⟩
  | more + 1, count =>
    match neighbour? count e n lo hi d closed with
    | some x => x
    | none => firstNeighbour e n lo hi d closed more (count + 1)

/-- The decimal with the fewest digits that rounds to the positive finite magnitude `m`. The
numbers that round to it reach half way to its neighbours, ends included when `m` is even. -/
def shortest (m : Nat) : Decimal :=
  let u := unitsOfMagnitude m
  let n := 2 * u
  let d := 2 * unitsPerOne
  firstNeighbour (Decimal.leadingExponent n d) n (unitsOfMagnitude (m - 1) + u)
    (u + unitsOfMagnitude (m + 1)) d (m % 2 = 0) 17 1

/-! ### Text -/

/-- The digits of a positive number without trailing zeros. -/
def significantDigits (n : Nat) : String := ((decimalText n).dropEndWhile (· == '0')).toString

/-- `count` zeros. -/
def zeros (count : Nat) : String := String.ofList (List.replicate count '0')

/-- A signed exponent of at least two digits. -/
def exponentText (e : Int) : String :=
  let digits := decimalText e.natAbs
  (if e < 0 then "e-" else "e+") ++ zeros (2 - digits.length) ++ digits

/-- Digits with a point after the first one, and an exponent. -/
def scientificText (digits : String) (e : Int) : String :=
  (digits.take 1).toString ++ (if digits.length ≤ 1 then "" else "." ++ (digits.drop 1).toString) ++
    exponentText e

/-- Digits with the point where it belongs, and at least one digit on either side of it. -/
def positionalText (digits : String) (e : Int) : String :=
  if e < 0 then "0." ++ zeros ((-e).toNat - 1) ++ digits
  else
    let whole := e.toNat + 1
    if digits.length ≤ whole then digits ++ zeros (whole - digits.length) ++ ".0"
    else (digits.take whole).toString ++ "." ++ (digits.drop whole).toString

/-- A positive decimal in its usual notation: the point is written where it belongs when the
leading exponent is at least `-4` and below `16`. -/
def decimalNotation (x : Decimal) : String :=
  let digits := significantDigits x.digits
  let e : Int := x.exponent + (decimalLength x.digits : Int) - 1
  if -4 ≤ e && e < 16 then positionalText digits e else scientificText digits e

/-- Puts the sign in front, and names the doubles that are not finite. -/
def signedText (x : Binary64) (finite : Nat → String) : String :=
  if x.isNaN then "nan"
  else (if x.negative then "-" else "") ++ if x.isInfinite then "inf" else finite x.magnitude

/-- The shortest text that reads back as the same double. -/
def toText (x : Binary64) : String :=
  signedText x fun m => if m = 0 then "0.0" else decimalNotation (shortest m)

/-- The text with twelve significant digits. -/
def toScientific (x : Binary64) : String :=
  signedText x fun m =>
    if m = 0 then scientificText (zeros 12) 0
    else
      let r := Decimal.ofQuotient 12 (unitsOfMagnitude m) unitsPerOne
      scientificText (decimalText r.digits) (r.exponent + 11)

/-! ### Reading -/

/-- The double of the given sign nearest to a decimal. Decimals from `10 ^ 310` on are infinite and
those below `10 ^ -330` are zero, whatever their digits. -/
def ofDecimal (negative : Bool) (x : Decimal) : Binary64 :=
  let top := x.exponent + decimalLength x.digits
  if x.digits = 0 || top < -330 then zero negative
  else if 311 < top then infinity negative
  else
    let (n, d) := Decimal.scaleTen x.digits 1 x.exponent
    roundUnits negative (n * unitsPerOne) d

end Binary64

end ExactNumerics
