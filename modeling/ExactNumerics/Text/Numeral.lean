import ExactNumerics.Binary64.Decimal
import ExactNumerics.Text.Blank
import ExactNumerics.Text.Digit
import ExactNumerics.Text.DigitLimit

/-!
# Numbers in text

An integer is an optional sign and digits; a double is an optional sign and either a decimal with
an optional exponent or the name of a double that is not finite. Two digits may have one
underscore between them. Which characters are digits is a parameter, and so is the limit on the
digits of an integer, in which leading zeros count and underscores do not. A double and an integer
in a base that is a power of two have no such limit.

## Main definitions

* `Numeral.run`: the longest run of digits at the start of a text.
* `Numeral.integer?`, `Numeral.double?`: a text that is a number as a whole.
* `readInteger?`, `readDouble?`: numbers with digits of any set between blanks.
* `readIntegerBytes?`, `readDoubleBytes?`: numbers in ASCII between blanks.
* `readInBase?`: an integer in base two, eight or sixteen between blanks.
-/

namespace ExactNumerics

namespace Numeral

/-- How characters are read as digits. -/
abbrev Digits := Char → Option Nat

/-- Whether a text starts with a digit. -/
def startsWithDigit (digit : Digits) : List Char → Bool
  | c :: _ => (digit c).isSome
  | [] => false

/-- The digits at the start of a text, and the rest of it. One underscore may stand between two
digits. -/
def run (digit : Digits) : List Char → List Nat × List Char
  | [] => ([], [])
  | c :: '_' :: rest =>
    match digit c with
    | none => ([], c :: '_' :: rest)
    | some d =>
      if startsWithDigit digit rest then
        let (ds, rest) := run digit rest
        (d :: ds, rest)
      else ([d], '_' :: rest)
  | c :: rest =>
    match digit c with
    | none => ([], c :: rest)
    | some d =>
      let (ds, rest) := run digit rest
      (d :: ds, rest)

/-- The number with the given decimal digits. -/
def ofDigits (ds : List Nat) : Nat := ds.foldl (fun n d => 10 * n + d) 0

/-- The sign in front of a number: whether it is a minus, and the rest. -/
def sign : List Char → Bool × List Char
  | '-' :: rest => (true, rest)
  | '+' :: rest => (false, rest)
  | cs => (false, cs)

/-- The integer with the given sign. -/
def signed (negative : Bool) (n : Nat) : Int := if negative then -(n : Int) else n

/-- A text that is an integer with as many digits as are admitted. -/
def integer? (limit : DigitLimit) (digit : Digits) (cs : List Char) : Option Int :=
  let (negative, cs) := sign cs
  match run digit cs with
  | ([], _) => none
  | (ds, []) =>
    if limit.admitsDigits ds.length then some (signed negative (ofDigits ds)) else none
  | _ => none

/-- An exponent at the start of a text, zero if there is none, and the rest. -/
def exponent? (digit : Digits) : List Char → Option (Int × List Char)
  | 'e' :: rest | 'E' :: rest =>
    let (negative, rest) := sign rest
    match run digit rest with
    | ([], _) => none
    | (ds, rest) => some (signed negative (ofDigits ds), rest)
  | cs => some (0, cs)

/-- A text that is a decimal without a sign. -/
def decimal? (digit : Digits) (cs : List Char) : Option Decimal :=
  let (whole, rest) := run digit cs
  let (fraction, rest) :=
    match rest with
    | '.' :: rest => run digit rest
    | _ => ([], rest)
  if whole.isEmpty && fraction.isEmpty then none
  else
    match exponent? digit rest with
    | some (e, []) => some ⟨ofDigits (whole ++ fraction), e - fraction.length⟩
    | _ => none

/-- A text that is a double. -/
def double? (digit : Digits) (cs : List Char) : Option Binary64 :=
  let (negative, cs) := sign cs
  let name := String.ofList (cs.map Char.toLower)
  if name = "inf" || name = "infinity" then some (Binary64.infinity negative)
  else if name = "nan" then some Binary64.nan
  else (decimal? digit cs).map (Binary64.ofDecimal negative)

end Numeral

namespace Numeral

/-- The value of a digit in a base up to sixteen, where letters continue the decimal digits. -/
def digitInBase? (base : Nat) (c : Char) : Option Nat :=
  let letter : Option Nat :=
    if 'a' ≤ c && c ≤ 'f' then some (c.toNat - 87)
    else if 'A' ≤ c && c ≤ 'F' then some (c.toNat - 55)
    else none
  ((Text.digitValue? c).or letter).filter (· < base)

/-- A text without the zero and the letter that announce a base. -/
def withoutBase (letter : Char) : List Char → List Char
  | '0' :: c :: rest => if c.toLower = letter then rest else '0' :: c :: rest
  | cs => cs

end Numeral

/-- The integer that a text stands for in a base, which a zero and the given letter may announce;
no underscores are read. -/
def readInBase? (base : Nat) (letter : Char) (cs : List Char) : Option Int := do
  let (negative, cs) := Numeral.sign (Text.trim Text.isBlank cs)
  let digits := Numeral.withoutBase letter cs
  if digits.isEmpty then none
  let ds ← digits.mapM (Numeral.digitInBase? base)
  return Numeral.signed negative (ds.foldl (fun n d => base * n + d) 0)

/-- The integer that a text stands for. -/
def readInteger? (limit : DigitLimit) (s : String) : Option Int :=
  Numeral.integer? limit Text.digitValue? (Text.trim Text.isBlank s.toList)

/-- The double that a text stands for. -/
def readDouble? (s : String) : Option Binary64 :=
  Numeral.double? Text.digitValue? (Text.trim Text.isBlank s.toList)

/-- The characters of a run of bytes; those outside ASCII are no part of a number. -/
def Text.byteChars (b : ByteArray) : List Char := b.toList.map fun x => Char.ofNat x.toNat

/-- The integer that a run of bytes stands for. -/
def readIntegerBytes? (limit : DigitLimit) (b : ByteArray) : Option Int :=
  Numeral.integer? limit Text.asciiDigit? (Text.trim Text.isAsciiBlank (Text.byteChars b))

/-- The double that a run of bytes stands for. -/
def readDoubleBytes? (b : ByteArray) : Option Binary64 :=
  Numeral.double? Text.asciiDigit? (Text.trim Text.isAsciiBlank (Text.byteChars b))

end ExactNumerics
