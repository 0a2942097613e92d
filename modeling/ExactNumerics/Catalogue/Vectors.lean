import ExactNumerics.Binary64.Elementary
import ExactNumerics.Flonum.Collect
import ExactNumerics.Flonum.Sum
import ExactNumerics.Session.Operation
import ExactNumerics.Value.Equality
import ExactNumerics.Value.Nested

/-!
# Operations on vectors

Construction, elements, ranges, pointwise operations and sums, under the names by which they are
called. Every vector that is answered is new; the four operations that overwrite a vector answer
nothing.

## Main definitions

* `Catalogue.builder?`, `Catalogue.mapper?`: the functions that vectors are built from.
* `Catalogue.copyInto`: the checked copy from one vector into another.
* `Catalogue.vectors`: the operations with their names.
-/

namespace ExactNumerics

-- powers of natural numbers are the ones of the core library
attribute [local instance (high)] instPowNat

namespace Catalogue

open Parameter Operation

/-- A new vector. -/
def freshVector (v : FlonumVector) : Value := .vector v none

/-- The list of the elements of a vector. -/
def elementList (v : FlonumVector) : Value := .list (v.toList.map .double)

/-- An operation on one checked vector. -/
def ofVector (operation : String) (f : FlonumVector → Value) : String × Operation :=
  (operation, unary (required "v") fun v => return f (← v.checkVector operation))

/-! ### Construction -/

/-- The vector of the items of a sequence. -/
def vectorOfItems : Value → Except Failure Value
  | .vector v _ => .ok (freshVector v)
  | v => do return freshVector (← (Value.list (← v.items)).toVector)

/-- A vector with equal elements. -/
def constantVector (n x : Value) : Except Failure Value := do
  let n ← n.checkNatural "make_flvector" "n"
  return freshVector (Array.replicate n (← x.toDouble))

/-- Construction from values. -/
def construction : List (String × Operation) :=
  [("flvector", variadic fun xs => return freshVector (← (Value.list xs).toVector)),
   ("list_to_flvector", unary (required "values") vectorOfItems),
   ("flvector_clone", unary (required "values") vectorOfItems),
   ("flvector_from_numpy",
    unary (required "array") fun a => return freshVector (← a.toVector)),
   ("make_flvector",
    binary (required "n") (optional "x" (.double (Binary64.zero false))) constantVector),
   ("flvector_zeros",
    unary (required "n") fun n => constantVector n (.double (Binary64.zero false)))]

/-! ### Functions that vectors are built from -/

/-- The double nearest to the quotient of two natural numbers. -/
def quotient (n d : Nat) : Value := .double (Binary64.ofRat (mkRat n d))

/-- The function of an index with the given name. -/
def builder? : String → Option (Nat → Value)
  | "id" => some fun i => .integer i
  | "square" => some fun i => .integer (i * i)
  | "half" => some fun i => quotient i 2
  | "recip" => some fun i => quotient 1 (i + 1)
  | "alt" => some fun i => .integer (if i % 2 = 1 then -(i : Int) else i)
  | "big2" => some fun i => .integer (if i = 2 then 10 ^ (400 : Nat) else i)
  | _ => none

/-- The function of elements with the given name, and the number of its arguments. -/
def mapper? : String → Option (Nat × (List Binary64 → Binary64))
  | "neg" => some (1, fun xs => (xs.getD 0 default).neg)
  | "abs" => some (1, fun xs => (xs.getD 0 default).abs)
  | "inc" => some (1, fun xs => (xs.getD 0 default).add Binary64.one)
  | "sub" => some (2, fun xs => (xs.getD 0 default).sub (xs.getD 1 default))
  | "muladd" => some (2, fun xs => ((xs.getD 0 default).mul (xs.getD 1 default)).add Binary64.one)
  | "sum3" =>
    some (3, fun xs => ((xs.getD 0 default).add (xs.getD 1 default)).add (xs.getD 2 default))
  | _ => none

/-- The vector of a function of the index. -/
def builtVector (n f : Value) : Except Failure Value := do
  let n ← n.checkNatural "build_flvector" "n"
  match f with
  | .text name =>
    match builder? name with
    | some f => return freshVector (← FlonumVector.build Value.element n f)
    | none => throw (.unworded .lookup)
  | _ => Value.wrongType

/-- The vector of a function of the elements at equal places. -/
def mappedVector (f : Value) (vs : List Value) : Except Failure Value := do
  if vs.isEmpty then Value.wrongType
  let vs ← Value.checkVectors "flvector_map" vs
  FlonumVector.sameLengths "flvector_map" vs
  match f with
  | .text name =>
    match mapper? name with
    | some (arity, f) =>
      if (vs.headD #[]).size ≠ 0 && vs.length ≠ arity then Value.wrongType
      return freshVector (← FlonumVector.mapRows .ok f vs)
    | none => throw (.unworded .lookup)
  | _ => Value.wrongType

/-- The vector of a sequence, of a given length if there is one, and the number of values that
were pulled. A vector of length zero is made without looking at the sequence. -/
def collectedVector (values length : Value) : Except Failure Value := do
  match length with
  | .null =>
    let items ← values.items
    return .pair (freshVector (← FlonumVector.collect Value.element items)) (.integer items.length)
  | length =>
    let n ← length.checkNatural "for_flvector" "length"
    if n = 0 then return .pair (freshVector #[]) (.integer 0)
    let items := (← values.items).toArray
    let (v, pulled) ← FlonumVector.take Value.element n (items[·]?)
    return .pair (freshVector v) (.integer pulled)

/-- Construction from functions and sequences. -/
def building : List (String × Operation) :=
  [("build_flvector", binary (required "n") (required "proc") builtVector),
   ("flvector_map",
    .calculate fun call => do
      match ← call.bindRest [required "proc"] with
      | ([f], vs) => return .exact (← mappedVector f vs)
      | _ => Value.wrongType),
   ("for_flvector", binary (required "values") (optional "length") collectedVector)]

/-! ### Elements and ranges -/

/-- A slice; the step is looked at first. -/
def sliced (v start stop step : Value) : Except Failure Value := do
  match v with
  | .vector v _ =>
    let step := (← step.index?).getD 1
    if step = 0 then Value.badValue
    let start ← start.index?
    let stop ← stop.index?
    return freshVector (← v.slice start stop step)
  | _ => Value.wrongType

/-- A copy of a checked range. -/
def copied (v start stop : Value) : Except Failure Value := do
  match v with
  | .vector v _ =>
    let check := Value.checkBound "flvector_copy" "vector"
    let start ← check "start" v.size start
    let stop ← match stop with
      | .null => pure (v.size : Int)
      | stop => check "end" v.size stop
    return freshVector (← v.copy start stop)
  | _ => Value.wrongType

/-- The number of items. -/
def lengthOf : Value → Except Failure Value
  | .mapping entries => .ok (.integer entries.length)
  | v => return .integer (← v.items).length

/-- Reading elements and ranges. -/
def reading : List (String × Operation) :=
  [ofVector "flvector_to_list" elementList,
   ("flvector_to_numpy",
    unary (required "v") fun
      | .vector v _ => .ok (elementList v)
      | _ => Value.wrongType),
   ("flvector_iter", unary (required "v") fun v => return .list (← v.items)),
   ("flvector_len", unary (required "v") lengthOf),
   ("flvector_repr",
    unaryWithin (required "v") fun limit v => return .text (← v.shown.written limit)),
   ("flvector_equal", binary (required "a") (required "b") fun a b => return .truth (a.equals b)),
   ("flvector_ref",
    binary (required "v") (required "index") fun v i => do
      match v with
      | .vector v _ => return .double (← v.get (← i.checkIndex "flvector_ref"))
      | _ => Value.wrongType),
   ("flvector_slice",
    ofValues [required "v", required "start", required "stop", optional "step"] fun
      | [v, start, stop, step] => sliced v start stop step
      | _ => Value.wrongType),
   ("flvector_copy",
    ternary (required "v") (optional "start" (.integer 0)) (optional "end") copied)]

/-! ### Overwriting -/

/-- The vector that is to be overwritten. -/
def target : Value → Except Failure (FlonumVector × Option Nat)
  | .vector v cell => .ok (v, cell)
  | _ => Value.wrongType

/-- Where elements come from: the destination itself when it is the same stored vector. -/
def originOf (destCell : Option Nat) (v : FlonumVector) (cell : Option Nat) : FlonumVector.Origin :=
  if cell.isSome && cell = destCell then .same else .other v

/-- Replaces one element. The new element is converted before the index is checked. -/
def setElement (v i x : Value) : Except Failure Overwrite := do
  let (v, cell) ← target v
  let x ← x.toDouble
  return ⟨cell, ← v.set (← i.checkIndex "flvector_set") x⟩

/-- Replaces all elements. -/
def fillAll (v x : Value) : Except Failure Overwrite := do
  let (v, cell) ← target v
  return ⟨cell, v.fill (← x.toDouble)⟩

/-- Copies a checked range of one vector into another. -/
def copyInto (dest destStart src srcStart srcEnd : Value) : Except Failure Overwrite := do
  let operation := "flvector_copy_range"
  let d ← dest.checkVector operation
  let s ← src.checkVector operation
  let (_, destCell) ← target dest
  let (_, srcCell) ← target src
  let first ← srcStart.checkBound operation "source" "start" s.size
  let last ← match srcEnd with
    | .null => pure (s.size : Int)
    | v => v.checkBound operation "source" "end" s.size
  FlonumVector.checkBounds operation "source" s.size first last
  let place ← destStart.checkBound operation "destination" "start" d.size
  return ⟨destCell, ← FlonumVector.copyRange d place (originOf destCell s srcCell) first last⟩

/-- Moves a range of one vector into another without any check of its own. What that does with
ranges that do not fit is not specified, so they are refused here. -/
def moveInto (dest destStart src srcStart srcEnd : Value) : Except Failure Overwrite := do
  let (d, destCell) ← target dest
  let (s, srcCell) ← target src
  match destStart, srcStart, srcEnd with
  | .integer place, .integer first, .integer last =>
    if 0 ≤ first && first ≤ last && last ≤ s.size && 0 ≤ place &&
        place + (last - first) ≤ d.size then
      let origin := originOf destCell s srcCell
      return ⟨destCell, FlonumVector.move d place.toNat origin first.toNat last.toNat⟩
    else Value.badValue
  | _, _, _ => Value.wrongType

/-- An overwriting operation with the given parameters. -/
def overwriting (ps : List Parameter) (f : List Value → Except Failure Overwrite) : Operation :=
  .overwrite fun call => do f (← call.bind ps)

/-- Overwriting elements. -/
def writing : List (String × Operation) :=
  [("flvector_set",
    overwriting [required "v", required "index", required "value"] fun
      | [v, i, x] => setElement v i x
      | _ => Value.wrongType),
   ("flvector_fill",
    overwriting [required "v", required "x"] fun
      | [v, x] => fillAll v x
      | _ => Value.wrongType),
   ("flvector_copy_range",
    overwriting
      [required "dest", required "dest_start", required "src",
       optional "src_start" (.integer 0), optional "src_end"] fun
      | [dest, destStart, src, srcStart, srcEnd] => copyInto dest destStart src srcStart srcEnd
      | _ => Value.wrongType),
   ("kernel_copy",
    overwriting
      [required "dest", required "dest_start", required "src", required "src_start",
       required "src_end"] fun
      | [dest, destStart, src, srcStart, srcEnd] => moveInto dest destStart src srcStart srcEnd
      | _ => Value.wrongType)]

/-! ### Pointwise operations -/

/-- An operation on every element. -/
def pointwise (operation : String) (f : Binary64 → Binary64) : String × Operation :=
  ofVector operation fun v => freshVector (v.map f)

/-- An approximate operation on every element. -/
def approximatePointwise (operation : String) (f : Binary64 → Binary64) : String × Operation :=
  (operation,
    unaryApproximate (required "v") fun v => do
      return freshVector ((← v.checkVector operation).map f))

/-- An operation on the elements of two values that have to be vectors. -/
def zipped (operation : String) (f : Binary64 → Binary64 → Binary64) (a b : Value) :
    Except Failure Value := do
  let a ← a.checkVector operation
  let b ← b.checkVector operation
  return freshVector (← FlonumVector.map₂ operation f a b)

/-- An operation on the elements of two vectors. -/
def pointwise₂ (operation : String) (f : Binary64 → Binary64 → Binary64) : String × Operation :=
  (operation, binary (required "a") (required "b") (zipped operation f))

/-- An operation on the elements of one vector or of two. -/
def pointwiseOneOrTwo (operation : String) (one : Binary64 → Binary64)
    (two : Binary64 → Binary64 → Binary64) : String × Operation :=
  (operation,
    binary (required "a") (optional "b") fun a b => do
      match b with
      | .null => return freshVector ((← a.checkVector operation).map one)
      | b => zipped operation two a b)

/-- A test of the elements of two vectors. -/
def comparison (operation : String) (f : Binary64 → Binary64 → Bool) : String × Operation :=
  (operation,
    binary (required "a") (required "b") fun a b => do
      let a ← a.checkVector operation
      let b ← b.checkVector operation
      return .list ((← FlonumVector.compare operation f a b).map .truth))

/-- Pointwise operations and comparisons. -/
def elementwise : List (String × Operation) :=
  [pointwise "flvector_round" Binary64.roundToInteger,
   pointwise "flvector_floor" Binary64.floor,
   pointwise "flvector_ceiling" Binary64.ceiling,
   pointwise "flvector_truncate" Binary64.truncate,
   pointwise "flvector_abs" Binary64.abs,
   pointwise "flvector_sqr" fun x => x.mul x,
   pointwise "flvector_sqrt" Binary64.sqrt,
   approximatePointwise "flvector_log" Binary64.log,
   approximatePointwise "flvector_exp" Binary64.exp,
   approximatePointwise "flvector_sin" Binary64.sin,
   approximatePointwise "flvector_cos" Binary64.cos,
   approximatePointwise "flvector_tan" Binary64.tan,
   approximatePointwise "flvector_asin" Binary64.asin,
   approximatePointwise "flvector_acos" Binary64.acos,
   approximatePointwise "flvector_atan" Binary64.atan,
   pointwise₂ "flvector_add" Binary64.add,
   pointwiseOneOrTwo "flvector_sub" Binary64.neg Binary64.sub,
   pointwise₂ "flvector_mul" Binary64.mul,
   pointwiseOneOrTwo "flvector_div" (Binary64.div Binary64.one) Binary64.div,
   pointwise₂ "flvector_min" Binary64.min,
   pointwise₂ "flvector_max" Binary64.max,
   ("flvector_expt",
    binaryApproximate (required "a") (required "b") (zipped "flvector_expt" Binary64.expt)),
   comparison "flvector_eq" Binary64.eq,
   comparison "flvector_lt" Binary64.lt,
   comparison "flvector_le" Binary64.le,
   comparison "flvector_gt" fun x y => y.lt x,
   comparison "flvector_ge" fun x y => y.le x]

/-! ### Sums -/

/-- The sum and the running sums. -/
def sums : List (String × Operation) :=
  [ofVector "flvector_sum" fun v => .double v.sum,
   ofVector "flvector_sums" fun v => freshVector v.runningSums]

/-- The operations on vectors. -/
def vectors : List (String × Operation) :=
  construction ++ building ++ reading ++ writing ++ elementwise ++ sums

end Catalogue

end ExactNumerics
