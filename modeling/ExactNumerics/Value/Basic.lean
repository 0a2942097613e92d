import ExactNumerics.Flonum.Vector
import ExactNumerics.Prime.StrongPseudoprime

/-!
# Values

What callers pass and receive: numbers of three kinds, texts, bytes, lists, tuples, powers,
mappings, vectors and the objects of a session. Operations take values, because a value of the
wrong kind is refused with a wording that shows it.

## Main definitions

* `Value`: the values.
* `Value.typeName`: the name of the kind of a value.
* `Value.shown`: a value as it is shown in the wording of a failure.
-/

namespace ExactNumerics

/-- What callers pass and receive. -/
inductive Value where
  /-- No value. -/
  | null
  /-- A truth value. -/
  | truth (b : Bool)
  /-- An integer. -/
  | integer (i : Int)
  /-- An exact rational number. -/
  | ratio (q : Rat)
  /-- A double. -/
  | double (x : Binary64)
  /-- A text. -/
  | text (s : String)
  /-- A run of bytes. -/
  | bytes (b : ByteArray)
  /-- A list. -/
  | list (items : List Value)
  /-- A tuple. -/
  | tuple (items : List Value)
  /-- A power, which also counts as the tuple of its base and its exponent. -/
  | power (base exponent : Value)
  /-- A mapping, with its entries in the order in which they were made. -/
  | mapping (entries : List (Value × Value))
  /-- A vector of doubles, with the cell that holds it if it is stored. -/
  | vector (v : FlonumVector) (cell : Option Nat)
  /-- The outcome of trials. -/
  | verdict (v : Verdict)
  /-- Settings. -/
  | settings (s : Settings)
  /-- A prime table, with the cell that holds it. -/
  | table (cell limit : Nat)
  /-- A source of draws, with the cell that holds it. -/
  | source (cell : Nat)
  /-- A value of a kind that nothing here computes with, such as a date. -/
  | other (typeName : String)

instance : Inhabited Value := ⟨.null⟩

namespace Value

/-- The list of some integers. -/
def integers (is : List Int) : Value := .list (is.map .integer)

/-- The list of some natural numbers. -/
def naturals (ns : List Nat) : Value := .list (ns.map fun (n : Nat) => .integer n)

/-- A power of natural numbers. -/
def ofPower (base exponent : Nat) : Value := .power (.integer base) (.integer exponent)

/-- The list of two values. -/
def pair (x y : Value) : Value := .list [x, y]

/-- A value that may be absent. -/
def ofOption {α : Type} (f : α → Value) : Option α → Value
  | some x => f x
  | none => .null

/-- The name of the kind of a value. -/
def typeName : Value → String
  | null => "NoneType"
  | truth _ => "bool"
  | integer _ => "int"
  | ratio _ => "Fraction"
  | double _ => "float"
  | text _ => "str"
  | bytes _ => "bytes"
  | list _ => "list"
  | tuple _ => "tuple"
  | power .. => "BaseExponent"
  | mapping _ => "dict"
  | vector .. => "FlVector"
  | verdict _ => "Witness"
  | settings _ => "Config"
  | table .. => "SieveOracle"
  | source _ => "Random"
  | other name => name

end Value

end ExactNumerics
