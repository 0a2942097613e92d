import ExactNumerics.Value.Basic
import ExactNumerics.Text.Quoted

/-!
# Values as text

A value that is shown may have integers in it, and the text tells them, because their digits may be
limited.

## Main definitions

* `Value.shown`: a value as it is shown where another kind of value was wanted.
* `Value.plain`: a value as it is shown where its kind does not matter.
-/

namespace ExactNumerics

namespace Value

open Wording (commas)

/-- A vector as a list of the shortest texts of its elements. -/
def vectorText (v : FlonumVector) : Wording :=
  "FlVector([" ++ commas (v.toList.map fun x => x.toText) ++ "])"

/-- A prime table, by its limit. -/
def tableText (limit : Nat) : Wording := "SieveOracle(limit=" ++ (limit : Wording) ++ ")"

/-- The fields of settings with their names. -/
def fieldTexts (s : Settings) : List Wording :=
  ["small_prime_limit=" ++ (s.smallPrimeLimit : Wording),
   "strong_pseudoprime_tolerance=" ++ s.tolerance.toText,
   "factorial_table_size=" ++ (s.factorialTableSize : Wording),
   "simple_factorial_cutoff=" ++ (s.simpleFactorialCutoff : Wording),
   "factorize_small_threshold=" ++ (s.trialDivisionLimit : Wording),
   "pollard_max_retries=" ++ (s.splitAttempts : Wording)]

/-- Settings, by the names of their fields. -/
def settingsText (s : Settings) : Wording := "Config(" ++ commas (fieldTexts s) ++ ")"

/-- An outcome of trials, by its name, the text that stands for it and the divisor found. -/
def outcomeText (name word : String) (divisor : Option Nat) : Wording :=
  "Witness(verdict=<Verdict." ++ name ++ ": " ++ Text.quoted word ++ ">, divisor=" ++
    (divisor.elim "None" fun d => d : Wording) ++ ")"

/-- The outcome of trials. -/
def verdictText : Verdict → Wording
  | .probablyPrime => outcomeText "PROBABLY_PRIME" "probably-prime" none
  | .veryProbablyPrime => outcomeText "VERY_PROBABLY_PRIME" "very-probably-prime" none
  | .composite => outcomeText "COMPOSITE" "composite" none
  | .divisor d => outcomeText "DIVISOR" "divisor" (some d)

/-- A truth value. -/
def truthText (b : Bool) : String := if b then "True" else "False"

mutual

/-- A value as it is shown where another kind of value was wanted. -/
def shown : Value → Wording
  | null => "None"
  | truth b => truthText b
  | integer i => i
  | ratio q => "Fraction(" ++ (q.num : Wording) ++ ", " ++ q.den ++ ")"
  | double x => x.toText
  | text s => Text.quoted s
  | bytes b => Text.quotedBytes b
  | list items => "[" ++ commas (shownList items) ++ "]"
  | tuple [item] => "(" ++ shown item ++ ",)"
  | tuple items => "(" ++ commas (shownList items) ++ ")"
  | power b e => "BaseExponent(base=" ++ shown b ++ ", exponent=" ++ shown e ++ ")"
  | mapping entries => "\x7b" ++ commas (shownEntries entries) ++ "\x7d"
  | vector v _ => vectorText v
  | verdict v => verdictText v
  | settings s => settingsText s
  | table _ limit => tableText limit
  | source _ => "Random"
  | other name => name

/-- The texts of the items of a list. -/
def shownList : List Value → List Wording
  | [] => []
  | v :: vs => shown v :: shownList vs

/-- The texts of the entries of a mapping. -/
def shownEntries : List (Value × Value) → List Wording
  | [] => []
  | (k, v) :: entries => (shown k ++ ": " ++ shown v) :: shownEntries entries

end

/-- A value as it is shown where its kind does not matter: a rational number is a quotient, a text
stands for itself, and settings are their fields. -/
def plain : Value → Wording
  | ratio q => if q.den = 1 then q.num else (q.num : Wording) ++ "/" ++ q.den
  | text s => s
  | settings s => Wording.joined " " (fieldTexts s)
  | v => v.shown

end Value

end ExactNumerics
