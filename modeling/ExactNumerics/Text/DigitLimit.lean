/-!
# Digits of integers in texts

Writing an integer in decimal digits and reading one can be limited to a number of digits, so that a
text cannot ask for a conversion of unbounded cost. The limit belongs to the surroundings: what is
computed with an integer does not depend on it, only what is written and read.

## Main definitions

* `DigitLimit`: a limit on the digits of an integer in a text, if there is one.
* `DigitLimit.admits`, `DigitLimit.admitsDigits`: the integers and the numbers of digits within it.
* `Wording`: a text with the integers that are written in it.
* `Wording.isWritable`: whether all of them are within a limit.
-/

namespace ExactNumerics

-- powers of natural numbers are the ones of the core library
attribute [local instance (high)] instPowNat

/-! ### The limit -/

/-- How many decimal digits an integer in a text may have, if that is limited. -/
abbrev DigitLimit := Option Nat

namespace DigitLimit

/-- The limit where none is set. -/
def usual : DigitLimit := some 4300

/-- Whether a number of digits is within the limit. -/
def admitsDigits (limit : DigitLimit) (count : Nat) : Bool := limit.all fun most => count ≤ most

/-- Whether the digits of an integer are within the limit. -/
def admits (limit : DigitLimit) (i : Int) : Bool := limit.all fun most => i.natAbs < 10 ^ most

/-- The sign of an integer does not count. -/
theorem admits_of_natAbs_le {limit : DigitLimit} {i j : Int} (h : limit.admits j = true)
    (hle : i.natAbs ≤ j.natAbs) : limit.admits i = true := by
  cases limit with
  | none => rfl
  | some most =>
    have hj : j.natAbs < 10 ^ most := of_decide_eq_true h
    exact decide_eq_true (Nat.lt_of_le_of_lt hle hj)

end DigitLimit

/-! ### Texts with integers -/

/-- A text with the integers that are written in it. -/
structure Wording where
  /-- The text. -/
  text : String
  /-- The integers. -/
  integers : List Int := []
  deriving DecidableEq, Repr

namespace Wording

/-- A text without an integer. -/
instance : Coe String Wording := ⟨fun s => ⟨s, []⟩⟩

/-- An integer in decimal digits. -/
def ofInteger (i : Int) : Wording := ⟨toString i, [i]⟩

instance : Coe Int Wording := ⟨ofInteger⟩

instance : Coe Nat Wording := ⟨fun n => ofInteger n⟩

/-- One text after the other. -/
instance : Append Wording := ⟨fun v w => ⟨v.text ++ w.text, v.integers ++ w.integers⟩⟩

/-- Some texts with a separator between them. -/
def joined (separator : String) (ws : List Wording) : Wording :=
  ⟨separator.intercalate (ws.map text), ws.flatMap integers⟩

/-- Some texts between commas. -/
def commas (ws : List Wording) : Wording := joined ", " ws

/-- Whether all integers in a text are within a limit. -/
def isWritable (limit : DigitLimit) (w : Wording) : Bool := w.integers.all limit.admits

end Wording

end ExactNumerics
