import ExactNumerics.Settings.Field

/-!
# Settings from environment variables

A variable that is unset, blank or not a number leaves its default in place, so reading settings
from the environment never fails. An integer with more digits than are admitted is not a number.

## Main definitions

* `Environment`: the variables that are set.
* `boundedInteger?`, `openInterval?`: the number in a variable, if it counts.
* `Settings.ofEnvironment`: the settings that the variables ask for.
-/

namespace ExactNumerics

/-- The variables that are set, each with its text. -/
abbrev Environment := List (String × String)

namespace Environment

/-- The text of a variable, if it is set. -/
def get? (e : Environment) (name : String) : Option String := e.lookup name

/-- The environment without a variable. -/
def erase (e : Environment) (name : String) : Environment := e.filter (·.1 ≠ name)

/-- The environment with a variable set. -/
def set (e : Environment) (name text : String) : Environment := (name, text) :: e.erase name

end Environment

/-- The integer in a variable, raised to a lower bound. -/
def boundedInteger? (limit : DigitLimit) (raw : Option String) (minimum : Int) : Option Int :=
  (raw.bind (readInteger? limit)).map fun i => max minimum i

/-- The double in a variable, if it lies strictly between two bounds. -/
def openInterval? (raw : Option String) (minimum maximum : Binary64) : Option Binary64 :=
  match raw.bind readDouble? with
  | some x => if minimum.lt x && x.lt maximum then some x else none
  | none => none

namespace Settings

/-- The numbers that the variables ask for. -/
def draftOfEnvironment (limit : DigitLimit) (get? : String → Option String) : Draft :=
  let standard : Settings := default
  let integer (name : String) (minimum : Int) (n : Nat) : Option Int :=
    some ((boundedInteger? limit (get? name) minimum).getD n)
  { smallPrimeLimit := integer "NUMCORE_SMALL_PRIME_LIMIT" 2 standard.smallPrimeLimit
    tolerance :=
      some ((openInterval? (get? "NUMCORE_PSEUDOPRIME_TOLERANCE") (Binary64.zero false)
        Binary64.one).getD standard.tolerance)
    factorialTableSize :=
      integer "NUMCORE_FACTORIAL_TABLE_SIZE" 1 standard.factorialTableSize
    simpleFactorialCutoff :=
      integer "NUMCORE_SIMPLE_FACTORIAL_CUTOFF" 0 standard.simpleFactorialCutoff
    trialDivisionLimit := integer "NUMCORE_FACTORIZE_THRESHOLD" 0 standard.trialDivisionLimit
    splitAttempts := integer "NUMCORE_POLLARD_MAX_RETRIES" 1 standard.splitAttempts }

/-- The settings that the variables ask for. -/
def ofEnvironment (limit : DigitLimit) (get? : String → Option String) : Except Failure Settings :=
  (draftOfEnvironment limit get?).check

end Settings

end ExactNumerics
