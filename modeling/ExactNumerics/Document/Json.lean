import ExactNumerics.Text.Numeral
import ExactNumerics.Value.Mapping

/-!
# JSON text

Besides the values of the standard, the three words for the doubles that are not finite are read.
Of two entries of a mapping with the same key, the later one counts. A text is read from its start,
and the first thing that is wrong with it is the failure: it is malformed, or it has an integer with
too many digits.

## Main definitions

* `Json.string?`, `Json.number`, `Json.value`: a value at the start of a text, with the rest.
* `Json.read`: a text that is one value as a whole.
-/

namespace ExactNumerics

namespace Json

/-- The failure of a text that is no value. -/
def malformed {α : Type} : Except Failure α := .error (.unworded .jsonText)

/-- What has to be found. -/
def wanted {α : Type} : Option α → Except Failure α
  | some a => .ok a
  | none => malformed

/-- The text after spaces, tabs and line ends. -/
def skipBlanks (cs : List Char) : List Char :=
  cs.dropWhile fun c => c = ' ' || c = '\t' || c = '\n' || c = '\r'

/-- The text after a given word. -/
def word? : List Char → List Char → Option (List Char)
  | [], cs => some cs
  | c :: word, d :: cs => if c = d then word? word cs else none
  | _ :: _, [] => none

/-! ### Strings -/

/-- The value of a hexadecimal digit. -/
def hexDigit? (c : Char) : Option Nat :=
  if '0' ≤ c && c ≤ '9' then some (c.toNat - 48)
  else if 'a' ≤ c && c ≤ 'f' then some (c.toNat - 87)
  else if 'A' ≤ c && c ≤ 'F' then some (c.toNat - 55)
  else none

/-- Four hexadecimal digits. -/
def codeUnit? : List Char → Option (Nat × List Char)
  | a :: b :: c :: d :: rest => do
    some ((((← hexDigit? a) * 16 + (← hexDigit? b)) * 16 + (← hexDigit? c)) * 16 + (← hexDigit? d),
      rest)
  | _ => none

/-- Whether a code unit is the first half of a pair. -/
def isHighHalf (n : Nat) : Bool := 0xD800 ≤ n && n < 0xDC00

/-- Whether a code unit is the second half of a pair. -/
def isLowHalf (n : Nat) : Bool := 0xDC00 ≤ n && n < 0xE000

/-- The character of a code unit; a half without its other half has the replacement character. -/
def unitChar (n : Nat) : Char :=
  if isHighHalf n || isLowHalf n then Char.ofNat 0xFFFD else Char.ofNat n

/-- The character of a code unit and possibly of its second half, which is the next escape. -/
def escapedChar? (cs : List Char) : Option (Char × List Char) := do
  let (high, rest) ← codeUnit? cs
  let single := (unitChar high, rest)
  match rest with
  | b :: 'u' :: more =>
    if isHighHalf high && b = Char.ofNat 0x5C then
      match codeUnit? more with
      | some (low, after) =>
        if isLowHalf low then
          some (Char.ofNat (0x10000 + (high - 0xD800) * 0x400 + (low - 0xDC00)), after)
        else some single
      | none => some single
    else some single
  | _ => some single

/-- The character that a letter after a backslash stands for. -/
def escapeOf? (c : Char) : Option Char :=
  if c = Char.ofNat 0x22 || c = Char.ofNat 0x5C || c = '/' then some c
  else if c = 'b' then some (Char.ofNat 8)
  else if c = 'f' then some (Char.ofNat 12)
  else if c = 'n' then some '\n'
  else if c = 'r' then some '\r'
  else if c = 't' then some '\t'
  else none

/-- The rest of a string after its opening quote. -/
def stringBody? : Nat → List Char → Option (List Char × List Char)
  | 0, _ => none
  | _, [] => none
  | fuel + 1, c :: rest =>
    if c = Char.ofNat 0x22 then some ([], rest)
    else if c.toNat < 0x20 then none
    else if c = Char.ofNat 0x5C then
      match rest with
      | 'u' :: digits => do
        let (x, rest) ← escapedChar? digits
        let (xs, rest) ← stringBody? fuel rest
        some (x :: xs, rest)
      | e :: rest => do
        let x ← escapeOf? e
        let (xs, rest) ← stringBody? fuel rest
        some (x :: xs, rest)
      | [] => none
    else do
      let (xs, rest) ← stringBody? fuel rest
      some (c :: xs, rest)

/-- A string at the start of a text. -/
def string? : List Char → Option (String × List Char)
  | c :: rest =>
    if c = Char.ofNat 0x22 then
      (stringBody? (rest.length + 1) rest).map fun (cs, rest) => (String.ofList cs, rest)
    else none
  | [] => none

/-! ### Numbers -/

/-- The digits at the start of a text. -/
def digits (cs : List Char) : List Char × List Char := cs.span fun c => (Text.asciiDigit? c).isSome

/-- The number with the given digits. -/
def numberOf (cs : List Char) : Nat := Numeral.ofDigits (cs.filterMap Text.asciiDigit?)

/-- The digits in front of the point: a zero, or digits that do not start with one. -/
def wholePart? : List Char → Option (List Char × List Char)
  | '0' :: rest => some (['0'], rest)
  | cs =>
    match digits cs with
    | ([], _) => none
    | r => some r

/-- The digits after a point, if a point with digits follows. -/
def fractionPart (cs : List Char) : List Char × List Char :=
  match cs with
  | '.' :: rest =>
    match digits rest with
    | ([], _) => ([], cs)
    | r => r
  | _ => ([], cs)

/-- The exponent, if one follows. -/
def exponentPart (cs : List Char) : Option Int × List Char :=
  match cs with
  | e :: rest =>
    if e = 'e' || e = 'E' then
      let (negative, rest) := Numeral.sign rest
      match digits rest with
      | ([], _) => (none, cs)
      | (ds, rest) => (some (Numeral.signed negative (numberOf ds)), rest)
    else (none, cs)
  | [] => (none, cs)

/-- A number at the start of a text; with a fraction or an exponent it is a double. -/
def number (limit : DigitLimit) (cs : List Char) : Except Failure (Value × List Char) := do
  let (negative, cs) := match cs with
    | '-' :: rest => (true, rest)
    | _ => (false, cs)
  let (whole, rest) ← wanted (wholePart? cs)
  let (fraction, rest) := fractionPart rest
  let (exponent, rest) := exponentPart rest
  if fraction.isEmpty && exponent.isNone then
    if limit.admitsDigits whole.length then
      return (.integer (Numeral.signed negative (numberOf whole)), rest)
    else throw (.unworded .value)
  else
    let x : Decimal := ⟨numberOf (whole ++ fraction), exponent.getD 0 - fraction.length⟩
    return (.double (Binary64.ofDecimal negative x), rest)

/-! ### Values -/

/-- A word that stands for a value. -/
def namedValue? (cs : List Char) : Option (Value × List Char) :=
  let words : List (String × Value) :=
    [("null", .null), ("true", .truth true), ("false", .truth false),
     ("NaN", .double Binary64.nan), ("Infinity", .double (Binary64.infinity false)),
     ("-Infinity", .double (Binary64.infinity true))]
  words.findSome? fun (w, v) => (word? w.toList cs).map fun rest => (v, rest)

mutual

/-- A value at the start of a text. -/
def value (limit : DigitLimit) : Nat → List Char → Except Failure (Value × List Char)
  | 0, _ => malformed
  | fuel + 1, cs =>
    match cs with
    | '[' :: rest =>
      match skipBlanks rest with
      | ']' :: rest => .ok (.list [], rest)
      | rest => do
        let (vs, rest) ← items limit fuel rest
        return (.list vs, rest)
    | '\x7b' :: rest =>
      match skipBlanks rest with
      | '\x7d' :: rest => .ok (.mapping [], rest)
      | rest => do
        let (es, rest) ← entries limit fuel [] rest
        return (.mapping es, rest)
    | _ =>
      match string? cs with
      | some (s, rest) => .ok (.text s, rest)
      | none =>
        match namedValue? cs with
        | some r => .ok r
        | none => number limit cs

/-- The items of a list, up to and with the closing bracket. -/
def items (limit : DigitLimit) : Nat → List Char → Except Failure (List Value × List Char)
  | 0, _ => malformed
  | fuel + 1, cs => do
    let (v, rest) ← value limit fuel cs
    match skipBlanks rest with
    | ',' :: rest => do
      let (vs, rest) ← items limit fuel (skipBlanks rest)
      return (v :: vs, rest)
    | ']' :: rest => return ([v], rest)
    | _ => malformed

/-- The entries of a mapping, up to and with the closing brace. -/
def entries (limit : DigitLimit) :
    Nat → List (Value × Value) → List Char → Except Failure (List (Value × Value) × List Char)
  | 0, _, _ => malformed
  | fuel + 1, before, cs => do
    let (key, rest) ← wanted (string? cs)
    match skipBlanks rest with
    | ':' :: rest => do
      let (v, rest) ← value limit fuel (skipBlanks rest)
      let es := Value.putEntry (.text key) v before
      match skipBlanks rest with
      | ',' :: rest => entries limit fuel es (skipBlanks rest)
      | '\x7d' :: rest => return (es, rest)
      | _ => malformed
    | _ => malformed

end

/-- A text that is one value between blanks. -/
def read (limit : DigitLimit) (cs : List Char) : Except Failure Value := do
  let (v, rest) ← value limit (cs.length + 1) (skipBlanks cs)
  if (skipBlanks rest).isEmpty then return v else malformed

end Json

end ExactNumerics
