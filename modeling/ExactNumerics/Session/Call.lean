import ExactNumerics.Value.Operand

/-!
# Calls

A call hands over values by position and by name. A parameter takes the value at its position, or
else the one with its name, or else its default; a call with a value too many or a value missing
is refused without a wording. Together with the values goes the limit on the digits of the integers
that are read and written.

## Main definitions

* `Parameter`: a name, possibly with a default.
* `Call`: the values handed over.
* `Call.bind`: the values of the parameters.
-/

namespace ExactNumerics

/-- A parameter of an operation. -/
structure Parameter where
  /-- The name under which it can be handed over. -/
  name : String
  /-- The value that it has when nothing is handed over. -/
  default? : Option Value := none

namespace Parameter

/-- A parameter that has to be handed over. -/
def required (name : String) : Parameter := ⟨name, none⟩

/-- A parameter that may be left out. -/
def optional (name : String) (v : Value := .null) : Parameter := ⟨name, some v⟩

end Parameter

/-- The values handed over. -/
structure Call where
  /-- The values by position. -/
  positional : List Value := []
  /-- The values by name. -/
  named : List (String × Value) := []
  /-- The limit on the digits of integers in texts. -/
  digits : DigitLimit := none

namespace Call

/-- The values of parameters of which the first ones are handed over by position. -/
def bindFrom (named : List (String × Value)) :
    List Parameter → List Value → Except Failure (List Value)
  | [], [] => .ok []
  | [], _ :: _ => .error (.unworded .type)
  | p :: ps, v :: vs =>
    if (named.lookup p.name).isSome then .error (.unworded .type)
    else return v :: (← bindFrom named ps vs)
  | p :: ps, [] =>
    match (named.lookup p.name).or p.default? with
    | some v => return v :: (← bindFrom named ps [])
    | none => .error (.unworded .type)

/-- The values of the parameters of an operation. -/
def bind (c : Call) (ps : List Parameter) : Except Failure (List Value) :=
  if c.named.all fun (name, _) => ps.any (·.name == name) then bindFrom c.named ps c.positional
  else .error (.unworded .type)

/-- The values of some parameters and of all positions after them. -/
def bindRest (c : Call) (ps : List Parameter) : Except Failure (List Value × List Value) := do
  let first ← { c with positional := c.positional.take ps.length : Call }.bind ps
  return (first, c.positional.drop ps.length)

end Call

end ExactNumerics
