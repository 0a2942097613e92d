import ExactNumerics.Failure

/-!
# Sources of uniform draws

A source is a stream of integers with the count of those already used. A draw from `[lo, hi)`
takes the next integer of the stream modulo the size of the range. Nothing is assumed of the
stream, so what holds for every source holds for every way the draws can fall.

## Main definitions

* `Draws`: a stream and the position in it.
* `Draws.uniform`: one draw from a range.
* `Draws.ofScript`: the stream that repeats a list of integers.
* `Draws.scattered`: a stream of well mixed integers, for callers without a source of their own.
-/

namespace ExactNumerics

-- powers of natural numbers are the ones of the core library
attribute [local instance (high)] instPowNat

/-- A stream of integers, with the number of those already taken. -/
structure Draws where
  /-- The integers, in the order in which they are taken. -/
  stream : Nat → Int
  /-- How many have been taken. -/
  taken : Nat := 0
  /-- After this many integers the stream repeats, if it is known to. -/
  period : Option Nat := none

namespace Draws

/-- Draws from `[lo, lo + width)`. -/
def uniform (d : Draws) (lo : Int) (width : Nat) : Int × Draws :=
  (lo + d.stream d.taken % width, { d with taken := d.taken + 1 })

/-- The stream that repeats a list of integers without end; an empty list stands for zeros. -/
def ofScript (script : List Int) : Draws :=
  let numbers := script.toArray
  { stream := fun i => numbers.getD (i % numbers.size) 0
    period := some numbers.size }

/-! ### A stream without a script -/

/-- Mixes the bits of a word so that neighbouring words have unrelated images. -/
def mix (z : UInt64) : UInt64 :=
  let z := (z ^^^ (z >>> 30)) * 0xBF58476D1CE4E5B9
  let z := (z ^^^ (z >>> 27)) * 0x94D049BB133111EB
  z ^^^ (z >>> 31)

/-- The `i`-th mixed word. -/
def word (i : Nat) : Nat := (mix (UInt64.ofNat (i + 1) * 0x9E3779B97F4A7C15)).toNat

/-- The stream whose `i`-th number joins thirty-two mixed words. -/
def scattered : Draws where
  stream i := (List.range 32).foldl (fun joined j => joined * 2 ^ (64 : Nat) + word (32 * i + j)) 0

/-- How many rounds of a search that only draws are worth trying: past the period of the stream
the same draws come again. -/
def patience (d : Draws) : Nat := d.period.getD (2 ^ (20 : Nat))

end Draws

end ExactNumerics
