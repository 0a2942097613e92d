import ExactNumerics.Text.Printable

/-!
# Quoted text

A text is shown between single quotes, or between double quotes when it holds a single quote and
no double one. A backslash stands before the enclosing quote and before itself; characters that
are not printed are written as escapes.

## Main definitions

* `Text.escaped`: how one character is written.
* `Text.quoted`: the text between quotes.
* `Text.quotedBytes`: bytes between quotes, of which only ASCII characters stand for themselves.
-/

namespace ExactNumerics

namespace Text

/-- The single quote. -/
def singleQuote : Char := Char.ofNat 0x27

/-- The double quote. -/
def doubleQuote : Char := Char.ofNat 0x22

/-- The backslash. -/
def backslash : Char := Char.ofNat 0x5C

/-- The last `width` hexadecimal digits of a number. -/
def hexDigits : Nat → Nat → List Char
  | 0, _ => []
  | width + 1, n => hexDigits width (n / 16) ++ [Nat.digitChar (n % 16)]

/-- How a character is written between quotes of the given kind. -/
def escaped (quote : Char) (c : Char) : List Char :=
  if c = quote || c = backslash then [backslash, c]
  else if c = '\t' then [backslash, 't']
  else if c = '\n' then [backslash, 'n']
  else if c = '\r' then [backslash, 'r']
  else if isPrintable c then [c]
  else if c.toNat < 0x100 then backslash :: 'x' :: hexDigits 2 c.toNat
  else if c.toNat < 0x10000 then backslash :: 'u' :: hexDigits 4 c.toNat
  else backslash :: 'U' :: hexDigits 8 c.toNat

/-- The quote that encloses some characters. -/
def enclosing (cs : List Char) : Char :=
  if !cs.contains singleQuote || cs.contains doubleQuote then singleQuote else doubleQuote

/-- The text between quotes. -/
def quoted (s : String) : String :=
  let cs := s.toList
  let quote := enclosing cs
  String.ofList (quote :: cs.flatMap (escaped quote) ++ [quote])

/-- How a byte is written between quotes of the given kind. -/
def escapedByte (quote : Char) (b : UInt8) : List Char :=
  if b < 0x80 then escaped quote (Char.ofNat b.toNat) else backslash :: 'x' :: hexDigits 2 b.toNat

/-- The bytes between quotes, after the letter that marks them. -/
def quotedBytes (bs : ByteArray) : String :=
  let quote := enclosing (bs.toList.map fun b => Char.ofNat b.toNat)
  String.ofList ('b' :: quote :: bs.toList.flatMap (escapedByte quote) ++ [quote])

end Text

end ExactNumerics
