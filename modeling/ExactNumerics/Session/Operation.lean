import ExactNumerics.Session.Answer
import ExactNumerics.Session.Call
import ExactNumerics.Session.Desk

/-!
# Operations

Operations are told apart by what they may touch. Most compute an answer from the values of the
call alone. Searches may also draw, read the settings and look up a prime table. Overwriting
operations replace the elements of one vector, and errands act on what calls share. So from the
kind of an operation alone it follows what it leaves as it is.

## Main definitions

* `Operation`: the four kinds.
* `Overwrite`: what an overwriting operation does.
* `Operation.unary`, `Operation.searchUnary`, …: operations with a given list of parameters.
-/

namespace ExactNumerics

/-- New elements for a vector. -/
structure Overwrite where
  /-- The cell of the vector, if it is stored. -/
  cell : Option Nat
  /-- The elements. -/
  contents : FlonumVector

/-- What a search may be given besides its values. -/
structure SearchAccess where
  /-- A prime table. -/
  table : Bool := true
  /-- A source of draws. -/
  draws : Bool := true

/-- An operation, by what it may touch. -/
inductive Operation where
  /-- Computes an answer from the values. -/
  | calculate (f : Call → Except Failure Answer)
  /-- Searches for an answer. -/
  | search (access : SearchAccess) (f : Call → Search Answer)
  /-- Replaces the elements of a vector and answers nothing. -/
  | overwrite (f : Call → Except Failure Overwrite)
  /-- Acts on what calls share. -/
  | administer (f : Call → Errand Value)

namespace Operation

/-! ### Operations on values -/

/-- An operation on the values of some parameters that reads or writes integers in texts. -/
def ofValuesWithin (ps : List Parameter) (f : DigitLimit → List Value → Except Failure Value) :
    Operation :=
  .calculate fun call => return .exact (← f call.digits (← call.bind ps))

/-- An operation on the values of some parameters. -/
def ofValues (ps : List Parameter) (f : List Value → Except Failure Value) : Operation :=
  ofValuesWithin ps fun _ => f

/-- An operation on any number of values. -/
def variadic (f : List Value → Except Failure Value) : Operation :=
  .calculate fun call => return .exact (← f (← call.bindRest []).2)

/-- An operation on one value that reads or writes integers in texts. -/
def unaryWithin (p : Parameter) (f : DigitLimit → Value → Except Failure Value) : Operation :=
  ofValuesWithin [p] fun
    | limit, [x] => f limit x
    | _, _ => Value.wrongType

/-- An operation on one value. -/
def unary (p : Parameter) (f : Value → Except Failure Value) : Operation :=
  unaryWithin p fun _ => f

/-- An operation on two values that reads or writes integers in texts. -/
def binaryWithin (p q : Parameter) (f : DigitLimit → Value → Value → Except Failure Value) :
    Operation :=
  ofValuesWithin [p, q] fun
    | limit, [x, y] => f limit x y
    | _, _ => Value.wrongType

/-- An operation on two values. -/
def binary (p q : Parameter) (f : Value → Value → Except Failure Value) : Operation :=
  binaryWithin p q fun _ => f

/-- An operation on three values that reads or writes integers in texts. -/
def ternaryWithin (p q r : Parameter)
    (f : DigitLimit → Value → Value → Value → Except Failure Value) : Operation :=
  ofValuesWithin [p, q, r] fun
    | limit, [x, y, z] => f limit x y z
    | _, _ => Value.wrongType

/-- An operation on three values. -/
def ternary (p q r : Parameter) (f : Value → Value → Value → Except Failure Value) : Operation :=
  ternaryWithin p q r fun _ => f

/-- An operation on a value whose answer is approximate. -/
def unaryApproximate (p : Parameter) (f : Value → Except Failure Value) : Operation :=
  .calculate fun call => do
    match ← call.bind [p] with
    | [x] => return .approximate (← f x)
    | _ => Value.wrongType

/-- An operation on two values whose answer is approximate. -/
def binaryApproximate (p q : Parameter) (f : Value → Value → Except Failure Value) : Operation :=
  .calculate fun call => do
    match ← call.bind [p, q] with
    | [x, y] => return .approximate (← f x y)
    | _ => Value.wrongType

/-! ### Searches -/

/-- A search with one value. -/
def searchUnary (access : SearchAccess) (p : Parameter) (f : Value → Search Value) : Operation :=
  .search access fun call => do
    match ← call.bind [p] with
    | [x] => return .exact (← f x)
    | _ => throw (.unworded .type)

/-- A search with two values. -/
def searchBinary (access : SearchAccess) (p q : Parameter) (f : Value → Value → Search Value) :
    Operation :=
  .search access fun call => do
    match ← call.bind [p, q] with
    | [x, y] => return .exact (← f x y)
    | _ => throw (.unworded .type)

/-! ### Errands -/

/-- An errand without a value. -/
def errandNullary (f : Errand Value) : Operation :=
  .administer fun call => do
    let _ ← call.bind []
    f

/-- An errand with one value. -/
def errandUnary (p : Parameter) (f : Value → Errand Value) : Operation :=
  .administer fun call => do
    match ← call.bind [p] with
    | [x] => f x
    | _ => throw (.unworded .type)

/-- An errand with two values. -/
def errandBinary (p q : Parameter) (f : Value → Value → Errand Value) : Operation :=
  .administer fun call => do
    match ← call.bind [p, q] with
    | [x, y] => f x y
    | _ => throw (.unworded .type)

end Operation

end ExactNumerics
