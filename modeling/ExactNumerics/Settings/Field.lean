import ExactNumerics.Value.Operand

/-!
# Fields of the settings

Settings are made from named values. A value is converted leniently: an integer field also takes an
integral double, a text and a truth value; the tolerance takes any number and a text. Whatever
cannot be converted or breaks a bound is reported by the names of all such fields.

## Main definitions

* `Settings.Field`: the fields, with their names in files and calls.
* `Settings.Draft`: six numbers that are still to be checked.
* `Settings.Draft.check`: the settings with these numbers.
* `Settings.ofFields`: settings from named values.
-/

namespace ExactNumerics

-- powers of natural numbers are the ones of the core library
attribute [local instance (high)] instPowNat

namespace Settings

/-- The fields of the settings. -/
inductive Field where
  /-- The size of the default prime table. -/
  | smallPrimeLimit
  /-- The accepted probability of a false prime. -/
  | tolerance
  /-- The number of tabulated factorials. -/
  | factorialTableSize
  /-- The bound of accumulated factorials. -/
  | simpleFactorialCutoff
  /-- The bound of trial division. -/
  | trialDivisionLimit
  /-- The number of attempts to split a composite. -/
  | splitAttempts
  deriving DecidableEq, Repr

namespace Field

/-- All fields, in the order in which they are listed. -/
def all : List Field :=
  [smallPrimeLimit, tolerance, factorialTableSize, simpleFactorialCutoff, trialDivisionLimit,
   splitAttempts]

/-- The name of a field in files and calls. -/
def name : Field → String
  | smallPrimeLimit => "small_prime_limit"
  | tolerance => "strong_pseudoprime_tolerance"
  | factorialTableSize => "factorial_table_size"
  | simpleFactorialCutoff => "simple_factorial_cutoff"
  | trialDivisionLimit => "factorize_small_threshold"
  | splitAttempts => "pollard_max_retries"

/-- The names of all fields. -/
def names : List String := all.map name

end Field

/-! ### Lenient conversion -/

/-- Whether a text can lose its underscores: none at an end, and no two together. -/
def hasInnerUnderscores : List Char → Bool
  | [] => true
  | ['_'] => false
  | '_' :: '_' :: _ => false
  | _ :: rest => hasInnerUnderscores rest

/-- A text without its underscores, if they all stand inside it. -/
def withoutUnderscores? (cs : List Char) : Option (List Char) :=
  if cs.head? = some '_' || !hasInnerUnderscores cs then none else some (cs.filter (· ≠ '_'))

/-- Drops a point with zeros and nothing else after it; fails when the point ends the text or
something else follows it. -/
def withoutZeroFraction? (cs : List Char) : Option (List Char) :=
  match cs.span (· ≠ '.') with
  | (whole, []) => some whole
  | (whole, _ :: zeros) => if !zeros.isEmpty && zeros.all (· = '0') then some whole else none

/-- Drops zeros and underscores between them in front of a number or of its minus sign, but keeps
the last of them in front of a point or of nothing. -/
def withoutLeadingZeros? (cs : List Char) : Option (List Char) :=
  match cs with
  | [] => none
  | c :: _ =>
    if c = '0' then
      let isFiller (c : Char) : Bool := c = '0' || c = '_'
      let filler := cs.takeWhile isFiller
      let rest := cs.dropWhile isFiller
      match rest with
      | [] => some [filler.getLastD '0']
      | d :: _ =>
        if d = '.' then some (filler.getLastD '0' :: rest)
        else if ('1' ≤ d && d ≤ '9') || d = '-' then some rest
        else none
    else if '1' ≤ c && c ≤ '9' then some cs
    else none

/-- Drops leading zeros after a sign. The plus sign goes as well, but no minus sign may follow
it. -/
def withoutSignedZeros? : List Char → Option (List Char)
  | '-' :: rest => (withoutLeadingZeros? rest).map ('-' :: ·)
  | '+' :: rest => if rest.head? = some '-' then none else withoutLeadingZeros? rest
  | cs => withoutLeadingZeros? cs

/-- An integer in ASCII digits without needless zeros and with no sign but a minus. -/
def plainInteger? (cs : List Char) : Option Int :=
  let (negative, digits) := match cs with
    | '-' :: rest => (true, rest)
    | _ => (false, cs)
  match digits with
  | [] => none
  | '0' :: _ :: _ => none
  | _ =>
    if digits.all fun c => (Text.asciiDigit? c).isSome then
      some (Numeral.signed negative (Numeral.ofDigits (digits.filterMap Text.asciiDigit?)))
    else none

/-- The integer that a text stands for in an integer field: ASCII digits between white space, with
an optional sign, possibly leading zeros, and possibly a fraction of zeros. The digits have a limit
of their own, whatever the surroundings admit. -/
def textInteger? (s : String) : Option Int := do
  let cs ← withoutSignedZeros? (Text.trim Text.isWhiteSpace s.toList)
  let cs ← withoutUnderscores? (← withoutZeroFraction? cs)
  if DigitLimit.usual.admitsDigits cs.length then plainInteger? cs else none

/-- The double that a text stands for in a double field. White space around it is dropped, but not
together with underscores inside it. -/
def textDouble? (s : String) : Option Binary64 :=
  let cs := s.toList
  if cs.contains '_' then (withoutUnderscores? cs).bind (Numeral.double? Text.asciiDigit?)
  else Numeral.double? Text.asciiDigit? (Text.trim Text.isWhiteSpace cs)

/-- The integer of a double in an integer field: it has to be integral and fit a 64-bit word. -/
def doubleInteger? (x : Binary64) : Option Int :=
  if x.isFinite && x.isIntegral && x.toInt.natAbs < 2 ^ (63 : Nat) then some x.toInt else none

/-- The integer of a value in an integer field. -/
def lenientInteger? : Value → Option Int
  | .truth b => some (if b then 1 else 0)
  | .integer i => some i
  | .double x => doubleInteger? x
  | .ratio q => if q.den = 1 then some q.num else none
  | .text s => textInteger? s
  | .bytes b => (String.fromUTF8? b).bind textInteger?
  | _ => none

/-- The double of a value in a double field. -/
def lenientDouble? : Value → Option Binary64
  | .text s => textDouble? s
  | .bytes b => (String.fromUTF8? b).bind textDouble?
  | .null => none
  | v => v.toDouble.toOption

/-! ### Checking -/

/-- Six numbers that are still to be checked; one that could not be read is missing. -/
structure Draft where
  /-- The size of the default prime table. -/
  smallPrimeLimit : Option Int
  /-- The accepted probability of a false prime. -/
  tolerance : Option Binary64
  /-- The number of tabulated factorials. -/
  factorialTableSize : Option Int
  /-- The bound of accumulated factorials. -/
  simpleFactorialCutoff : Option Int
  /-- The bound of trial division. -/
  trialDivisionLimit : Option Int
  /-- The number of attempts to split a composite. -/
  splitAttempts : Option Int

/-- A number that is present and not below its bound. -/
def atLeast? (bound : Nat) : Option Int → Option { n : Nat // bound ≤ n }
  | some i => if h : bound ≤ i.toNat ∧ 0 ≤ i then some ⟨i.toNat, h.1⟩ else none
  | none => none

/-- A tolerance that is present and within its bounds. -/
def admitted? : Option Binary64 → Option { t : Binary64 // admitsTolerance t = true }
  | some t => if h : admitsTolerance t = true then some ⟨t, h⟩ else none
  | none => none

/-- The settings with the numbers of a draft, or the sorted names of the fields that are wrong. -/
def Draft.check (d : Draft) : Except Failure Settings :=
  match atLeast? 2 d.smallPrimeLimit, admitted? d.tolerance, atLeast? 1 d.factorialTableSize,
    atLeast? 0 d.simpleFactorialCutoff, atLeast? 0 d.trialDivisionLimit,
    atLeast? 1 d.splitAttempts with
  | some limit, some tolerance, some size, some cutoff, some threshold, some attempts =>
    .ok ⟨limit, tolerance, size, cutoff, threshold, attempts, limit.2, tolerance.2, size.2,
      attempts.2⟩
  | limit, tolerance, size, cutoff, threshold, attempts =>
    let wrong :=
      [(Field.smallPrimeLimit, limit.isNone), (.tolerance, tolerance.isNone),
       (.factorialTableSize, size.isNone), (.simpleFactorialCutoff, cutoff.isNone),
       (.trialDivisionLimit, threshold.isNone), (.splitAttempts, attempts.isNone)]
    let names := (wrong.filter (·.2)).map fun (field, _) => field.name
    .error (.invalidFields (names.mergeSort fun a b => a ≤ b))

/-- Settings from named values; fields that are not named have their defaults. -/
def ofFields (value? : Field → Option Value) : Except Failure Settings :=
  let standard : Settings := default
  let integer (field : Field) (n : Nat) : Option Int :=
    match value? field with
    | some v => lenientInteger? v
    | none => some n
  let double (field : Field) (x : Binary64) : Option Binary64 :=
    match value? field with
    | some v => lenientDouble? v
    | none => some x
  Draft.check
    { smallPrimeLimit := integer .smallPrimeLimit standard.smallPrimeLimit
      tolerance := double .tolerance standard.tolerance
      factorialTableSize := integer .factorialTableSize standard.factorialTableSize
      simpleFactorialCutoff := integer .simpleFactorialCutoff standard.simpleFactorialCutoff
      trialDivisionLimit := integer .trialDivisionLimit standard.trialDivisionLimit
      splitAttempts := integer .splitAttempts standard.splitAttempts }

end Settings

end ExactNumerics
