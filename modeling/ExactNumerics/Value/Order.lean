import ExactNumerics.Value.Equality

/-!
# Order and addition of values

Numbers of all kinds are ordered by their exact value, texts by their characters, and lists and
tuples by the first items that differ. Values of unlike kinds have no order. What has an order can
also be added: numbers as numbers, and the rest end to end.

## Main definitions

* `Value.before`: whether a value is less than another.
* `Value.sorted`: values in increasing order.
* `Value.plus`: the sum of two values.
-/

namespace ExactNumerics

namespace Value

/-! ### Order -/

mutual

/-- Whether a value is less than another; refused for unlike kinds. -/
def before : Value → Value → Except Failure Bool
  | text s, text t => .ok (s < t)
  | list vs, list ws => beforeList vs ws
  | tuple vs, tuple ws => beforeList vs ws
  | power b e, power c f => if b.equals c then before e f else before b c
  | power b e, tuple [c, f] => if b.equals c then before e f else before b c
  | tuple [b, e], power c f => if b.equals c then before e f else before b c
  | v, w => return (← v.quantity).less (← w.quantity)

/-- Whether a list comes before another one. -/
def beforeList : List Value → List Value → Except Failure Bool
  | v :: vs, w :: ws => if v.equals w then beforeList vs ws else before v w
  | [], _ :: _ => .ok true
  | _, [] => .ok false

end

/-- Puts a value behind all those of an ordered list that are not greater. -/
def insertInOrder (v : Value) : List Value → Except Failure (List Value)
  | [] => .ok [v]
  | w :: ws => do
    if ← v.before w then return v :: w :: ws else return w :: (← insertInOrder v ws)

/-- Values in increasing order, equal ones in their own order. -/
def sorted (vs : List Value) : Except Failure (List Value) :=
  vs.foldlM (fun ordered v => insertInOrder v ordered) []

/-! ### Addition -/

/-- The integer of a value that counts as one. -/
def wholeNumber? : Value → Option Int
  | truth b => some (if b then 1 else 0)
  | integer i => some i
  | _ => none

/-- The sum of two numbers: an integer if both are, a double if one is, and else a rational. -/
def plusNumber (v w : Value) : Except Failure Value := do
  match v.wholeNumber?, w.wholeNumber? with
  | some i, some j => return .integer (i + j)
  | _, _ =>
    match ← v.quantity, ← w.quantity with
    | .exact p, .exact q => return .ratio (p + q)
    | p, q => return .double ((← p.toDouble).add (← q.toDouble))

/-- The sum of two numbers, or two texts, lists or tuples end to end. -/
def plus : Value → Value → Except Failure Value
  | text s, text t => .ok (.text (s ++ t))
  | list vs, list ws => .ok (.list (vs ++ ws))
  | tuple vs, tuple ws => .ok (.tuple (vs ++ ws))
  | v, w => plusNumber v w

end Value

end ExactNumerics
