import ExactNumerics.Document.Yaml.Node
import ExactNumerics.Text.Base64

/-!
# The values of scalars

A plain scalar may stand for nothing, a truth value, an integer, a double or a date; any other
scalar is a text, unless it has a tag. Integers are decimal, or octal after a zero, binary or
hexadecimal, or in base sixty between colons. A double has a point, and its exponent has a sign.
A line feed at the end has no part in what a scalar stands for, but a truth value must not have one.
A decimal integer, and each part of one in base sixty, has a limit on its digits.

## Main definitions

* `Yaml.integerOf`, `Yaml.doubleOf`: numbers in their various forms.
* `Yaml.plainValue`: what a plain scalar stands for.
* `Yaml.taggedValue`: what a scalar with a tag stands for.
-/

namespace ExactNumerics

namespace Yaml

open Value (orBadValue)

/-! ### Forms of plain scalars -/

/-- A text without the line feed at its end, if it has one. -/
def withoutLastBreak (cs : List Char) : List Char :=
  if cs.getLast? = some '\n' then cs.dropLast else cs

/-- Whether a text is made of the characters of a class, and of at least one. -/
def allOf (p : Char → Bool) (cs : List Char) : Bool := !cs.isEmpty && cs.all p

/-- Whether a character is a digit or an underscore. -/
def isDigitOrUnderscore (c : Char) : Bool := c.isDigit || c = '_'

/-- A text without its sign. -/
def withoutSign (cs : List Char) : List Char := (Numeral.sign cs).2

/-- The parts of a text between colons. -/
def colonParts (cs : List Char) : List (List Char) := cs.splitOn ':'

/-- Whether a text is a decimal number with underscores after its first digit. -/
def isDecimalRun : List Char → Bool
  | c :: rest => c.isDigit && rest.all isDigitOrUnderscore
  | [] => false

/-- Whether a text is a number below sixty of at most two digits. -/
def isSixtieth : List Char → Bool
  | [c] => c.isDigit
  | [c, d] => '0' ≤ c && c ≤ '5' && d.isDigit
  | _ => false

/-- Whether a plain scalar is an integer. -/
def isInteger (cs : List Char) : Bool :=
  match withoutSign cs with
  | ['0'] => true
  | '0' :: 'b' :: digits => allOf (fun c => c = '0' || c = '1' || c = '_') digits
  | '0' :: 'x' :: digits => allOf (fun c => (Json.hexDigit? c).isSome || c = '_') digits
  | '0' :: digits => allOf (fun c => ('0' ≤ c && c ≤ '7') || c = '_') digits
  | digits =>
    match colonParts digits with
    | whole :: parts => isDecimalRun whole && parts.all isSixtieth
    | [] => false

/-- Whether a text is empty or an exponent with a sign. -/
def isExponent : List Char → Bool
  | [] => true
  | [_] => false
  | e :: sign :: digits =>
    (e = 'e' || e = 'E') && (sign = '+' || sign = '-') && allOf Char.isDigit digits

/-- Whether a text is a fraction after its point, possibly with an exponent. -/
def isFraction (cs : List Char) : Bool := isExponent (cs.dropWhile isDigitOrUnderscore)

/-- Whether a plain scalar is a double. -/
def isDouble (cs : List Char) : Bool :=
  let names : List (List Char) := [".inf", ".Inf", ".INF"].map String.toList
  let nans : List (List Char) := [".nan", ".NaN", ".NAN"].map String.toList
  let unsigned := withoutSign cs
  if names.contains unsigned || nans.contains cs then true
  else
    match cs with
    | '.' :: digit :: rest => digit.isDigit && isFraction rest
    | _ =>
      let (whole, fraction) := unsigned.span (· ≠ '.')
      match fraction, colonParts whole with
      | [], _ => false
      | _ :: fraction, [whole] => isDecimalRun whole && isFraction fraction
      | _ :: fraction, whole :: parts =>
        isDecimalRun whole && parts.all isSixtieth && fraction.all isDigitOrUnderscore
      | _, [] => false

/-! ### Numbers -/

/-- The sign of a text and the rest of it; an empty text has no place for a sign. -/
def signOf : List Char → Except Failure (Bool × List Char)
  | [] => .error (.unworded .position)
  | cs => .ok (Numeral.sign cs)

/-- The integer of a text after its sign. -/
def unsignedInteger (limit : DigitLimit) : List Char → Except Failure Int
  | [] => .error (.unworded .position)
  | ['0'] => .ok 0
  | '0' :: 'b' :: digits => orBadValue (readInBase? 2 'b' digits)
  | '0' :: 'x' :: digits => orBadValue (readInBase? 16 'x' digits)
  | '0' :: digits => orBadValue (readInBase? 8 'o' ('0' :: digits))
  | cs => do
    let parts ← (colonParts cs).mapM fun part =>
      orBadValue (readInteger? limit (String.ofList part))
    return parts.foldl (fun n d => 60 * n + d) 0

/-- The integer of a scalar. -/
def integerOf (limit : DigitLimit) (cs : List Char) : Except Failure Int := do
  let (negative, cs) ← signOf (cs.filter (· ≠ '_'))
  let i ← unsignedInteger limit cs
  return if negative then -i else i

/-- The double of a text without underscores or colons. -/
def doublePart (cs : List Char) : Except Failure Binary64 :=
  orBadValue (readDouble? (String.ofList cs))

/-- The double that parts between colons stand for: the last one counts once, the one before it
sixty times, and so on, added from the last one. -/
def sexagesimal (parts : List Binary64) : Binary64 :=
  let add (sum : Binary64 × Nat) (x : Binary64) : Binary64 × Nat :=
    (sum.1.add (x.mul (Binary64.ofRat sum.2)), sum.2 * 60)
  (parts.reverse.foldl add (Binary64.zero false, 1)).1

/-- The double of a scalar. -/
def doubleOf (cs : List Char) : Except Failure Binary64 := do
  let lower := (cs.filter (· ≠ '_')).map Char.toLower
  let (negative, cs) ← signOf lower
  let x ← if cs = ".inf".toList then pure (Binary64.infinity false)
    else if cs = ".nan".toList then pure Binary64.nan
    else if cs.contains ':' then do
      let parts ← (colonParts cs).mapM doublePart
      pure (sexagesimal parts)
    else doublePart cs
  return if negative then x.neg else x

/-! ### Dates -/

/-- The number of days of a month. -/
def daysOfMonth (year month : Nat) : Nat :=
  if month = 2 then
    if year % 4 = 0 && (year % 100 ≠ 0 || year % 400 = 0) then 29 else 28
  else if month = 4 || month = 6 || month = 9 || month = 11 then 30
  else 31

/-- Whether there is such a day. -/
def isDay (year month day : Nat) : Bool :=
  1 ≤ year && 1 ≤ month && month ≤ 12 && 1 ≤ day && day ≤ daysOfMonth year month

/-- The number of a run of ASCII digits of one of the given lengths. -/
def number? (lengths : List Nat) (cs : List Char) : Option Nat :=
  if cs.all Char.isDigit && lengths.contains cs.length then some (Json.numberOf cs) else none

/-- The three numbers of a day, with months and days of the given lengths. -/
def day? (lengths : List Nat) (cs : List Char) : Option (Nat × Nat × Nat) :=
  match cs.splitOn '-' with
  | [y, m, d] => do return (← number? [4] y, ← number? lengths m, ← number? lengths d)
  | _ => none

/-- A zone after a time: nothing, the letter for Greenwich, or a sign with hours and minutes, which
may be a day apart at most. -/
def zone? (cs : List Char) : Option Bool :=
  match cs.dropWhile fun c => c = ' ' || c = '\t' with
  | [] => if cs.isEmpty then some true else none
  | ['Z'] => some true
  | sign :: rest =>
    if sign = '+' || sign = '-' then
      match colonParts rest with
      | [h] => (number? [1, 2] h).map (· < 24)
      | [h, m] => do
        let hours ← number? [1, 2] h
        let minutes ← number? [2] m
        return hours * 60 + minutes < 24 * 60
      | _ => none
    else none

/-- The seconds of a time, with a fraction and a zone. -/
def seconds? (cs : List Char) : Option Bool := do
  let seconds ← number? [2] (cs.take 2)
  let rest := match cs.drop 2 with
    | '.' :: fraction => fraction.dropWhile Char.isDigit
    | rest => rest
  return seconds < 60 && (← zone? rest)

/-- A time of a day. -/
def time? (cs : List Char) : Option Bool := do
  let (h, rest) := cs.span (· ≠ ':')
  let (m, rest) := (rest.drop 1).span (· ≠ ':')
  let hour ← number? [1, 2] h
  let minute ← number? [2] m
  let fits ← seconds? (rest.drop 1)
  return hour < 24 && minute < 60 && fits

/-- A date, possibly with a time: whether there is such a moment, and the name of its kind. A date
without a time has months and days of the given lengths. -/
def date? (lengths : List Nat) (cs : List Char) : Option (Bool × String) :=
  match day? lengths cs with
  | some (y, m, d) => some (isDay y m d, "date")
  | none => do
    let (day, rest) := cs.span fun c => c.isDigit || c = '-'
    let (y, m, d) ← day? [1, 2] day
    let time ← match rest with
      | 'T' :: time | 't' :: time => some time
      | c :: time =>
        if c = ' ' || c = '\t' then some (time.dropWhile fun c => c = ' ' || c = '\t') else none
      | [] => none
    return (isDay y m d && (← time? time), "datetime")

/-! ### Scalars -/

/-- The words that stand for nothing. -/
def nullWords : List String := ["", "~", "null", "Null", "NULL"]

/-- The words for the truth values. -/
def truthWords : List (String × Bool) :=
  [("yes", true), ("no", false), ("true", true), ("false", false), ("on", true), ("off", false)]

/-- A word in the three ways in which words are written: small, with a capital, or in capitals. -/
def writings (word : String) : List String := [word, word.capitalize, word.toUpper]

/-- The truth value of a word. -/
def truth? (s : String) : Option Bool :=
  (truthWords.find? fun (word, _) => (writings word).contains s).map (·.2)

/-- What a plain scalar stands for. The two keys with a meaning of their own are no values. -/
def plainValue (limit : DigitLimit) (cs : List Char) : Except Failure Value :=
  let form := withoutLastBreak cs
  let s := String.ofList form
  match truth? s with
  | some b => if form = cs then .ok (.truth b) else .error (.unworded .lookup)
  | none =>
    if nullWords.contains s && cs ≠ ['\n'] then .ok .null
    else if isDouble form then do return .double (← doubleOf cs)
    else if isInteger form then do return .integer (← integerOf limit cs)
    else if s = "<<" || s = "=" then throw malformed
    else
      match date? [2] form with
      | some (true, kind) => .ok (.other kind)
      | some (false, _) => .error (.unworded .value)
      | none => .ok (.text (String.ofList cs))

/-- The value of a scalar with a tag. -/
def taggedValue (limit : DigitLimit) (tag : String) (cs : List Char) : Except Failure Value := do
  let s := String.ofList cs
  let is (kind : String) : Bool := tag = Node.standardStart ++ kind
  if is "str" then return .text s
  else if is "null" then return .null
  else if is "int" then return .integer (← integerOf limit cs)
  else if is "float" then return .double (← doubleOf cs)
  else if is "bool" then
    match truthWords.lookup s.toLower with
    | some b => return .truth b
    | none => throw (.unworded .lookup)
  else if is "timestamp" then
    match date? [1, 2] (withoutLastBreak cs) with
    | some (true, kind) => return .other kind
    | some (false, _) => throw (.unworded .value)
    | none => throw (.unworded .attribute)
  else if is "binary" then
    match if cs.all (·.toNat < 0x80) then Base64.decode? cs else none with
    | some b => return .bytes b
    | none => throw malformed
  else throw malformed

/-- The value of a scalar. -/
def scalarValue (limit : DigitLimit) (tag : Option String) (cs : List Char) (plain : Bool) :
    Except Failure Value :=
  match tag with
  | some t => taggedValue limit t cs
  | none => if plain then plainValue limit cs else .ok (.text (String.ofList cs))

end Yaml

end ExactNumerics
