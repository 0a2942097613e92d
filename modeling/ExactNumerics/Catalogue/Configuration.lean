import ExactNumerics.Session.Operation
import ExactNumerics.Settings.File

/-!
# Operations on settings

Settings are made from named values, from the environment and from files, and the active ones are
read and replaced, under the names by which this is called.

## Main definitions

* `Catalogue.boundedVariable`, `Catalogue.intervalVariable`: numbers in a variable.
* `Catalogue.configuration`: the operations with their names.
-/

namespace ExactNumerics

namespace Catalogue

open Parameter Operation

/-! ### Variables -/

/-- The text of a variable that is set or not. A text with a null character cannot be set. -/
def variableText : Value → Except Failure (Option String)
  | .null => .ok none
  | .text s => if s.toList.contains (Char.ofNat 0) then Value.badValue else .ok (some s)
  | _ => Value.wrongType

/-- The integer in a variable, raised to a lower bound of any numeric kind. -/
def boundedVariable (limit : DigitLimit) (raw standard minimum : Value) : Except Failure Value := do
  let raw ← variableText raw
  match minimum with
  | .integer m =>
    match boundedInteger? limit raw m with
    | some i => return .integer i
    | none => return standard
  | minimum =>
    match raw.bind (readInteger? limit) with
    | some i =>
      return if (← minimum.quantity).less (.exact i) then .integer i else minimum
    | none => return standard

/-- The double in a variable, if it lies strictly between two bounds of any numeric kind. -/
def intervalVariable (raw standard minimum maximum : Value) : Except Failure Value := do
  match (← variableText raw).bind readDouble? with
  | some x =>
    let fits := (← minimum.quantity).less (.double x) &&
      Quantity.less (.double x) (← maximum.quantity)
    return if fits then .double x else standard
  | none => return standard

/-- Sets a variable, or unsets it. -/
def assignVariable : Value → Value → Errand Value
  | .text name, v => do
    let v ← variableText v
    modify fun d =>
      { d with
        environment := match v with
          | some s => d.environment.set name s
          | none => d.environment.erase name }
    return .null
  | _, _ => throw (.unworded .type)

/-- Environment variables. -/
def environmentVariables : List (String × Operation) :=
  [("parse_int_env",
    ternaryWithin (required "raw") (required "default") (optional "minimum" (.integer 1))
      boundedVariable),
   ("parse_float_env",
    ofValues
      [required "raw", required "default",
       optional "minimum" (.double (Binary64.zero false)),
       optional "maximum" (.double Binary64.one)] fun
      | [raw, standard, minimum, maximum] => intervalVariable raw standard minimum maximum
      | _ => Value.wrongType),
   ("setenv", errandBinary (required "name") (required "value") assignVariable)]

/-! ### Settings -/

/-- Settings from named values; names of no field are ignored. -/
def namedSettings (call : Call) : Except Failure Answer := do
  if !call.positional.isEmpty then Value.wrongType
  return .exact (.settings (← Settings.ofFields fun field => call.named.lookup field.name))

/-- Settings from the environment. -/
def environmentSettings : Errand Value := do
  let d ← get
  return .settings (← Settings.ofEnvironment d.digits d.environment.get?)

/-- The settings in a file, with the warnings about it. -/
def fileSettings (limit : DigitLimit) : Value → Value → Except Failure Value
  | .text path, text => do
    let text ← match text with
      | .null => pure none
      | .text s => pure (some s)
      | _ => Value.wrongType
    let (settings, warnings) ← Settings.File.read limit path text
    return .pair (.settings settings) (.list (warnings.map .text))
  | _, _ => Value.wrongType

/-- Replaces the active settings; without settings they are read anew on demand. -/
def replaceSettings : Value → Errand Value
  | .null => do
    modify fun d => { d with active := none }
    return .null
  | .settings s => do
    modify fun d => { d with active := some s }
    return .null
  | _ => throw (.unworded .type)

/-- The operations on settings. -/
def configuration : List (String × Operation) :=
  environmentVariables ++
    [("config_new", .calculate namedSettings),
     ("config_from_env", errandNullary environmentSettings),
     ("config_from_file", binaryWithin (required "path") (required "text") fileSettings),
     ("get_config", errandNullary (return .settings (← Errand.settings))),
     ("set_config", errandUnary (required "config") replaceSettings)]

end Catalogue

end ExactNumerics
