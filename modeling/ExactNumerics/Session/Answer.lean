import ExactNumerics.Value.Basic

/-!
# Answers

Most operations answer a value. Functions whose last bits are not specified answer an approximate
one, and a chain of steps in one ring of residues answers the outcome of every step.

## Main definitions

* `Answer`: what an operation answers.
* `Answer.toValue`, `Answer.map`: the value of an answer.
-/

namespace ExactNumerics

/-- What an operation answers. -/
inductive Answer where
  /-- A value that is specified to the last bit. -/
  | exact (v : Value)
  /-- A double or a vector whose last bits are not specified. -/
  | approximate (v : Value)
  /-- The outcomes of steps modulo a number. -/
  | chain (modulus : Nat) (outcomes : List (Except Failure Value))

namespace Answer

/-- How the ring of a chain is shown. -/
def chainTitle (modulus : Nat) : String := s!"ModularContext({modulus})"

/-- The value that stands for an answer in a later call. -/
def toValue : Answer → Value
  | exact v => v
  | approximate v => v
  | chain .. => .other "list"

/-- An answer with its value replaced. -/
def map (f : Value → Value) : Answer → Answer
  | exact v => exact (f v)
  | approximate v => approximate (f v)
  | chain modulus outcomes => chain modulus outcomes

end Answer

end ExactNumerics
