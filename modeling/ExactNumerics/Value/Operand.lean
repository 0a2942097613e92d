import ExactNumerics.Flonum.Discrepancy
import ExactNumerics.Flonum.Range
import ExactNumerics.Text.Numeral
import ExactNumerics.Value.Text

/-!
# Reading operands

An operand that has to be an integer is checked: neither a truth value nor a double is one, even
if it is integral. An operand that is *converted* to a double or to an integer may be of any
numeric kind, or a text that stands for a number.

## Main definitions

* `Value.checkInteger`, `Value.checkNatural`, `Value.checkPositive`: checked integers.
* `Value.toDouble`, `Value.truncated`, `Value.element`: conversions.
* `Value.quantity`: a number whose error can be measured.
* `Value.checkVector`, `Value.checkVectors`: checked vectors.
* `Value.checkIndex`, `Value.checkBound`: places in a vector.
* `Value.items`: the items of anything that has items.
-/

namespace ExactNumerics

namespace Value

/-- The failure of a value of the wrong kind in a conversion. -/
def wrongType {α : Type} : Except Failure α := .error (.unworded .type)

/-- The failure of an impossible value in a conversion. -/
def badValue {α : Type} : Except Failure α := .error (.unworded .value)

/-- The failure of a number that is too large for a conversion. -/
def tooLarge {α : Type} : Except Failure α := .error (.unworded .overflow)

/-! ### Checked integers -/

/-- A checked integer. -/
def checkInteger (operation name : String) : Value → Except Failure Int
  | integer i => .ok i
  | v => .error (.notInteger operation name v.shown)

/-- A checked natural number. -/
def checkNatural (operation name : String) (v : Value) : Except Failure Nat := do
  let i ← v.checkInteger operation name
  if i < 0 then throw (.negative operation name i)
  return i.toNat

/-- A checked positive number. -/
def checkPositive (operation name : String) (v : Value) : Except Failure Nat := do
  let n ← v.checkNatural operation name
  if n = 0 then throw (.notPositive operation name)
  return n

/-! ### Conversions -/

/-- The double nearest to a rational number in the range of the doubles. -/
def nearestDouble (q : Rat) : Except Failure Binary64 := Quantity.toDouble (.exact q)

/-- A number that was read, if there was one. -/
def orBadValue {α : Type} : Option α → Except Failure α
  | some x => .ok x
  | none => badValue

/-- The double that a number, a truth value, a text or a run of bytes stands for. -/
def toDouble : Value → Except Failure Binary64
  | truth b => nearestDouble (if b then 1 else 0)
  | integer i => nearestDouble i
  | ratio q => nearestDouble q
  | double x => .ok x
  | text s => orBadValue (readDouble? s)
  | bytes b => orBadValue (readDoubleBytes? b)
  | _ => wrongType

/-- The integer towards zero of a number, or the one that a text or a run of bytes stands for within
a limit on its digits. -/
def truncated (limit : DigitLimit) : Value → Except Failure Int
  | truth b => .ok (if b then 1 else 0)
  | integer i => .ok i
  | ratio q => .ok (q.num.tdiv q.den)
  | double x => if x.isNaN then badValue else if x.isInfinite then tooLarge else .ok x.toInt
  | text s => orBadValue (readInteger? limit s)
  | bytes b => orBadValue (readIntegerBytes? limit b)
  | _ => wrongType

/-- The double that an item of a sequence becomes as an element of a vector. -/
def element : Value → Except Failure Binary64
  | null => .ok Binary64.nan
  | list _ | tuple _ | power .. | vector .. => badValue
  | v => v.toDouble

/-- A number whose error can be measured. -/
def quantity : Value → Except Failure Quantity
  | truth b => .ok (.exact (if b then 1 else 0))
  | integer i => .ok (.exact i)
  | ratio q => .ok (.exact q)
  | double x => .ok (.double x)
  | _ => wrongType

/-- An optional index: an integer, a truth value or nothing. -/
def index? : Value → Except Failure (Option Int)
  | null => .ok none
  | integer i => .ok (some i)
  | truth b => .ok (some (if b then 1 else 0))
  | _ => wrongType

/-! ### Vectors and sequences -/

/-- A checked vector. -/
def checkVector (operation : String) : Value → Except Failure FlonumVector
  | vector v _ => .ok v
  | v => .error (.notVector operation v.typeName)

/-- Checked vectors. -/
def checkVectors (operation : String) (vs : List Value) : Except Failure (List FlonumVector) :=
  vs.mapM (checkVector operation)

/-- A checked index, not compared with a length yet. -/
def checkIndex (operation : String) : Value → Except Failure Int
  | integer i => .ok i
  | v => .error (.indexNotInteger operation v.shown)

/-- A checked bound of a range of a vector of the given length. -/
def checkBound (operation what name : String) (length : Nat) : Value → Except Failure Int
  | integer i => do
    FlonumVector.checkBound operation what name length i
    return i
  | v => .error (.boundNotInteger operation what name v.shown)

/-- The items of a list, a tuple, a power, a vector or a text. -/
def items : Value → Except Failure (List Value)
  | list vs | tuple vs => .ok vs
  | power b e => .ok [b, e]
  | vector v _ => .ok (v.toList.map .double)
  | text s => .ok (s.toList.map fun c => .text c.toString)
  | _ => wrongType

end Value

end ExactNumerics
