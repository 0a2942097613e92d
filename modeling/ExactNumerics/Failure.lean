import ExactNumerics.Text.DigitLimit

/-!
# Causes of failure

Every operation that can be refused says why in a value of type `Failure`. A cause carries the
offending numbers; the wording is in one place, `Failure.wording?`.

Operations are named in the wording by the name under which they are called, so a cause that
several operations share carries that name.

The wording is made when the operation is refused. If it would have to write an integer with more
digits than the surroundings admit, it cannot be made, and what is reported in place of the cause is
an impossible value without a wording: `Failure.reported`.

## Main definitions

* `Failure.Kind`: the broad class of a failure.
* `Failure`: the causes.
* `Failure.kind`, `Failure.wording?`: the class of a cause, and its wording if it has one.
* `Failure.integers`, `Failure.message`: the integers in the wording, and its text.
* `Failure.reported`, `Failure.reporting`: what is reported of a cause and of an outcome within a
  limit on the digits.
* `Wording.written`: a text that is asked for, within a limit on the digits.
-/

namespace ExactNumerics

/-- The broad class of a failure. -/
inductive Failure.Kind where
  /-- An argument outside the domain of an operation. -/
  | domain
  /-- Pointwise operands of unequal lengths. -/
  | lengthMismatch
  /-- An index or range that does not fit a vector. -/
  | index
  /-- A composite that could not be split. -/
  | factorization
  /-- An argument of the wrong type. -/
  | type
  /-- An argument of the right type with an impossible value. -/
  | value
  /-- A number outside the range of the doubles. -/
  | overflow
  /-- Settings that break their bounds. -/
  | validation
  /-- Malformed JSON text. -/
  | jsonText
  /-- Malformed YAML text. -/
  | yamlText
  /-- A file that does not exist. -/
  | missingFile
  /-- A division by zero in a number conversion. -/
  | zeroDivision
  /-- A name or key that does not exist. -/
  | lookup
  /-- A place that a sequence or a text does not have. -/
  | position
  /-- A property that a value does not have. -/
  | attribute
  deriving DecidableEq, Repr

/-- Why an operation was refused. -/
inductive Failure where
  /-- `shown` is not an integer. -/
  | notInteger (operation name : String) (shown : Wording)
  /-- A natural number was wanted. -/
  | negative (operation name : String) (value : Int)
  /-- A positive number was wanted and zero was given. -/
  | notPositive (operation name : String)
  /-- Zero divides nothing but itself. -/
  | zeroDivisor (dividend : Int)
  /-- The base of a negative power, or a divisor, shares a factor with the modulus. -/
  | notInvertible (operation : String) (value : Int) (modulus : Nat)
  /-- As many residues as moduli are needed. -/
  | unpairedResidues (residues moduli : Nat)
  /-- A system of congruences without a congruence. -/
  | noModulus
  /-- Two moduli of a system share a factor. -/
  | sharedFactor (modulus : Nat) (moduli : List Nat)
  /-- There is no integer in `[lo, hi)`. -/
  | emptyRange (lo hi : Int)
  /-- A prime table has at least the entries `0` and `1`. -/
  | tableTooSmall (limit : Nat)
  /-- A number without an entry in a prime table. -/
  | outsideTable (shown : Wording) (limit : Nat)
  /-- A bound past the end of a prime table. -/
  | beyondTable (shown : Wording) (limit : Nat)
  /-- A tolerance is a probability other than zero and one. -/
  | toleranceOutside (shown : Wording)
  /-- A trial needs a number with a witness to draw. -/
  | trialTooSmall (n : Nat)
  /-- No prime is smaller than two. -/
  | noPrimeBelow (n : Nat)
  /-- Every power of one divides every number. -/
  | noMaximalPower (n : Nat)
  /-- The random splits of a composite all failed. -/
  | unsplit (n attempts : Nat)
  /-- The Legendre symbol is defined over odd primes. -/
  | notOddPrime (p : Nat)
  /-- The components of a multinomial coefficient have another sum. -/
  | wrongSum (components : List Nat) (n : Nat)
  /-- A quotient that has to be exact leaves a remainder. -/
  | inexactQuotient (numerator denominator : Nat)
  /-- A NaN has no place in the order of the doubles. -/
  | nanOrdinal
  /-- No double has this ordinal. -/
  | ordinalOutside (i : Int) (bound : Nat)
  /-- Pointwise operands of unequal lengths. -/
  | lengthMismatch (operation : String) (lengths : List Nat)
  /-- An index that is not an integer. -/
  | indexNotInteger (operation : String) (shown : Wording)
  /-- An index outside a vector. -/
  | indexOutside (operation : String) (index : Int) (length : Nat)
  /-- A bound of a range that is not an integer. -/
  | boundNotInteger (operation what name : String) (shown : Wording)
  /-- A negative bound of a range. -/
  | boundNegative (operation what name : String) (value : Int)
  /-- A bound of a range past the end of its vector. -/
  | boundBeyond (operation what name : String) (value : Int) (length : Nat)
  /-- A range that ends before it starts. -/
  | boundsReversed (operation what : String) (start stop : Int)
  /-- A range that does not fit between a start and the end of a vector. -/
  | noRoom (length : Nat) (count start : Int)
  /-- A vector was wanted. -/
  | notVector (operation typeName : String)
  /-- Nested lists of numbers have more than one dimension, a bare number has none. -/
  | notOneDimensional (shape : List Nat)
  /-- A settings file is told by its ending. -/
  | unknownFileKind
  /-- A settings file holds one mapping. -/
  | notMapping (path : String)
  /-- The named settings are not of their type or break their bounds. -/
  | invalidFields (names : List String)
  /-- A search did not end within the rounds that it was given. -/
  | outOfRounds
  /-- A conversion without a wording of its own failed. -/
  | unworded (kind : Failure.Kind)
  deriving DecidableEq, Repr

namespace Failure

/-- The class of a cause. -/
def kind : Failure → Kind
  | unsplit .. => .factorization
  | lengthMismatch .. => .lengthMismatch
  | indexOutside .. | boundNegative .. | boundBeyond .. | boundsReversed .. | noRoom .. => .index
  | indexNotInteger .. | boundNotInteger .. | notVector .. => .type
  | notOneDimensional .. | unknownFileKind | notMapping .. | inexactQuotient .. => .value
  | invalidFields .. => .validation
  | outOfRounds => .lookup
  | unworded k => k
  | _ => .domain

/-- The numbers of a list between commas. -/
def commas (ns : List Nat) : Wording := Wording.commas (ns.map fun (n : Nat) => (n : Wording))

/-- A list of numbers in square brackets. -/
def bracketed (ns : List Nat) : Wording := "[" ++ commas ns ++ "]"

/-- The extents of a nested list in parentheses; a single one keeps its comma. -/
def parenthesized : List Nat → Wording
  | [n] => "(" ++ (n : Wording) ++ ",)"
  | ns => "(" ++ commas ns ++ ")"

/-- The wording of a cause that names its operation. -/
def of (operation : String) (w : Wording) : Option Wording := some (operation ++ ": " ++ w)

/-- The wording of a cause, if it has one. -/
def wording? : Failure → Option Wording
  | notInteger op name shown => of op (name ++ " must be an integer, got " ++ shown)
  | negative op name value => of op (name ++ " must be non-negative, got " ++ value)
  | notPositive op name => of op (name ++ " must be positive, got 0")
  | zeroDivisor b => of "divides" ("divisor must be nonzero (b=" ++ b ++ ")")
  | notInvertible op a n => of op (a ++ " is not invertible modulo " ++ n)
  | unpairedResidues r m => of "solve_chinese" ("got " ++ r ++ " residues but " ++ m ++ " moduli")
  | noModulus => of "solve_chinese" "at least one modulus is required"
  | sharedFactor n ns =>
    of "solve_chinese" ("modulus " ++ n ++ " is not coprime to the other moduli " ++ bracketed ns)
  | emptyRange lo hi => of "random_integer" ("empty range [" ++ lo ++ ", " ++ hi ++ ")")
  | tableTooSmall limit => of "SieveOracle" ("limit must be at least 2, got " ++ limit)
  | outsideTable n limit =>
    of "is_prime" (n ++ " is outside the sieve range [0, " ++ limit ++ ")")
  | beyondTable n limit =>
    of "primes_below" (n ++ " is outside the sieve range [0, " ++ limit ++ "]")
  | toleranceOutside t =>
    of "strong_pseudoprime_trials" ("tolerance must lie in (0, 1), got " ++ t)
  | trialTooSmall n => of "strong_pseudoprime_trial" ("n must be greater than 3, got " ++ n)
  | noPrimeBelow n => of "random_prime" ("there is no prime below " ++ n)
  | noMaximalPower n => of "max_dividing_power" ("no maximal power of 1 divides " ++ n)
  | unsplit n attempts =>
    of "factorize" ("Pollard's rho found no divisor of " ++ n ++ " in " ++ attempts ++ " attempts")
  | notOddPrime p => of "quadratic_character" ("modulus must be an odd prime, got " ++ p)
  | wrongSum ks n => of "multinomial" ("components " ++ bracketed ks ++ " do not sum to " ++ n)
  | inexactQuotient a b => some (a ++ " is not divisible by " ++ b)
  | nanOrdinal => of "flonum_to_ordinal" "nan has no ordinal"
  | ordinalOutside i bound =>
    of "ordinal_to_flonum" ("ordinal " ++ i ++ " outside [-" ++ bound ++ ", " ++ bound ++ "]")
  | lengthMismatch op ns =>
    of op ("vectors must have the same length, got lengths " ++ commas ns)
  | indexNotInteger op shown => of op ("index must be an integer, got " ++ shown)
  | indexOutside op i n => of op ("index " ++ i ++ " out of range for length " ++ n)
  | boundNotInteger op what name shown =>
    of op (what ++ " " ++ name ++ " must be an integer, got " ++ shown)
  | boundNegative op what name value =>
    of op (what ++ " " ++ name ++ " " ++ value ++ " is negative")
  | boundBeyond op what name value n =>
    of op (what ++ " " ++ name ++ " " ++ value ++ " exceeds " ++ what ++ " length " ++ n)
  | boundsReversed op what start stop =>
    of op (what ++ " end " ++ stop ++ " is smaller than start " ++ start)
  | noRoom n count start =>
    of "flvector_copy_range" ("destination of length " ++ n ++ " has no room for " ++ count ++
      " elements starting at " ++ start)
  | notVector op typeName => of op ("expected FlVector, got " ++ typeName)
  | notOneDimensional shape =>
    some ("FlVector needs a one-dimensional sequence, got shape " ++ parenthesized shape)
  | unknownFileKind => some "The provided config file needs to be a json or yaml file!"
  | notMapping path => some ("Config file " ++ path ++ " must contain a mapping")
  | invalidFields _ => none
  | outOfRounds => none
  | unworded _ => none

variable (f : Failure)

/-- The text of a cause, if it has one. -/
def message : Option String := f.wording?.map (·.text)

/-- The integers in the wording of a cause. -/
def integers : List Int := f.wording?.elim [] (·.integers)

/-- Whether the wording of a cause can be made within a limit. -/
def isWritable (limit : DigitLimit) : Bool := f.integers.all limit.admits

/-- What is reported of a cause within a limit. -/
def reported (limit : DigitLimit) : Failure :=
  if f.isWritable limit then f else unworded .value

/-- An outcome, with what is reported of its cause. -/
def reporting {α : Type} (limit : DigitLimit) : Except Failure α → Except Failure α
  | .ok a => .ok a
  | .error f => .error (f.reported limit)

end Failure

/-- A text that is asked for; it is refused if an integer in it has too many digits. -/
def Wording.written (limit : DigitLimit) (w : Wording) : Except Failure String :=
  if w.isWritable limit then .ok w.text else .error (.unworded .value)

end ExactNumerics
