import ExactNumerics.Session.Answer

/-!
# Requests

A request names an operation and hands over terms: values, or names of what was stored before.

## Main definitions

* `Term`: a value, or something that was stored.
* `Request`: an operation with what it is given.
* `Report`: what came out of it.
-/

namespace ExactNumerics

/-- What a request hands over. -/
inductive Term where
  /-- A value. -/
  | value (v : Value)
  /-- What is stored under a name. -/
  | stored (name : String)
  /-- A list of terms. -/
  | list (ts : List Term)

instance : Inhabited Term := ⟨.value .null⟩

/-- Where the draws of a request come from. -/
inductive DrawSource where
  /-- From anywhere. -/
  | any
  /-- From a list of numbers, over and over. -/
  | script (numbers : List Int)
  /-- From a stored source. -/
  | stored (name : String)

/-- Which prime table a request uses. -/
inductive TableChoice where
  /-- The default table. -/
  | standard
  /-- A new table with a given limit. -/
  | limit (v : Value)
  /-- A stored table. -/
  | stored (name : String)

/-- An operation with what it is given. -/
structure Request where
  /-- The name of the operation. -/
  operation : String
  /-- The terms by position. -/
  positional : List Term := []
  /-- The terms by name. -/
  named : List (String × Term) := []
  /-- Fields of settings that are made active first. -/
  settings : Option (List (String × Term)) := none
  /-- The prime table. -/
  table : TableChoice := .standard
  /-- The draws. -/
  draws : DrawSource := .any
  /-- The name under which the answer is stored. -/
  store : Option String := none

/-- What came out of a request. -/
structure Report where
  /-- The answer, or why there is none. -/
  outcome : Except Failure Answer
  /-- How many numbers of its script were drawn, if it has a script. -/
  drawn : Option Nat := none

end ExactNumerics
