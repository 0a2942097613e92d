import ExactNumerics.Binary64.Constants
import ExactNumerics.Session.Operation

/-!
# Operations on doubles

The order of the doubles and the measurement of errors, under the names by which they are called.

## Main definitions

* `Catalogue.measured`: an error against a reference.
* `Catalogue.doubles`: the operations with their names.
-/

namespace ExactNumerics

namespace Catalogue

open Parameter Operation

/-! ### The order of the doubles -/

/-- The named constants, among them the ordinal of infinity. -/
def constantsValue : Value :=
  let infinityOrdinal : String × Value := ("INF_ORDINAL", .integer Binary64.infinityOrdinal)
  let doubles := Binary64.constants.map fun (name, x) => (name, Value.double x)
  let named := (infinityOrdinal :: doubles).mergeSort fun c d => c.1 ≤ d.1
  .list (named.map fun (name, v) => .pair (.text name) v)

/-- The ordinal of a double; a NaN has none. -/
def ordinalOf (x : Value) : Except Failure Int := do
  let x ← x.toDouble
  if x.isNaN then throw .nanOrdinal
  return x.ordinal

/-- The double with an ordinal. -/
def doubleOf (limit : DigitLimit) (i : Value) : Except Failure Value := do
  let i ← i.truncated limit
  if Binary64.infinityOrdinal < i.natAbs then throw (.ordinalOutside i Binary64.infinityOrdinal)
  return .double (Binary64.ofOrdinal i)

/-- The double some steps away. From a NaN there is no step, so their number is not looked at. -/
def stepFrom (limit : DigitLimit) (x n : Value) : Except Failure Value := do
  let x ← x.toDouble
  if x.isNaN then return .double Binary64.nan
  return .double (x.step (← n.truncated limit))

/-- The number of steps from a double to another one. -/
def stepsBetween (x y : Value) : Except Failure Value := do
  let j ← ordinalOf y
  return .integer (j - (← ordinalOf x))

/-- An operation on one double. -/
def ofDouble (f : Binary64 → Binary64) : Operation :=
  unary (required "x") fun x => return .double (f (← x.toDouble))

/-- The order of the doubles. -/
def order : List (String × Operation) :=
  [("constants", ofValues [] fun _ => return constantsValue),
   ("flonum_to_ordinal", unary (required "x") fun x => return .integer (← ordinalOf x)),
   ("ordinal_to_flonum", unaryWithin (required "i") doubleOf),
   ("flstep", binaryWithin (required "x") (required "n") stepFrom),
   ("flnext", ofDouble Binary64.next),
   ("flprev", ofDouble Binary64.previous),
   ("flonums_between", binary (required "x") (required "y") stepsBetween),
   ("flulp", ofDouble Binary64.ulp)]

/-! ### Errors -/

/-- An exact error, or a double that is no number. -/
def ofQuantity : Quantity → Value
  | .exact q => .ratio q
  | .double x => .double x

/-- An error against a reference, which is not looked at when the measured value is a NaN. -/
def measured (f : Quantity → Quantity → Except Failure Value) (x r : Value) :
    Except Failure Value := do
  let x ← x.quantity
  if x.isNaN then return .double Binary64.nan
  f x (← r.quantity)

/-- The measurement of errors. -/
def errors : List (String × Operation) :=
  let pair (f : Quantity → Quantity → Except Failure Value) :=
    binary (required "x") (required "r") (measured f)
  [("absolute_error", pair fun x r => return ofQuantity (absoluteError x r)),
   ("relative_error", pair fun x r => return ofQuantity (relativeError x r)),
   ("flulp_error", pair fun x r => return .double (← ulpError x r))]

/-- The operations on doubles. -/
def doubles : List (String × Operation) := order ++ errors

end Catalogue

end ExactNumerics
