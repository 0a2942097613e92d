import ExactNumerics.Failure

/-!
# Positions in a text

A cursor is what is left of a text, with the line and the column where it starts. Reading moves
the cursor forward.

## Main definitions

* `Yaml.isBreak`, `Yaml.endsWord`, `Yaml.endsLine`: classes of characters.
* `Yaml.Cursor`: a position in a text.
* `Yaml.Scan`: reading from a position.
* `Yaml.Scan.takeWhile`: the longest run of characters of a class.
-/

namespace ExactNumerics

namespace Yaml

/-! ### Classes of characters -/

/-- The mark that a text may start with. -/
def byteOrderMark : Char := Char.ofNat 0xFEFF

/-- Whether a character ends a line. -/
def isBreak (c : Char) : Bool :=
  c = '\n' || c.toNat = 0x85 || c.toNat = 0x2028 || c.toNat = 0x2029

/-- Whether a line ends here: at a line end, or at the end of the text. -/
def endsLine : Option Char → Bool
  | none => true
  | some c => isBreak c

/-- Whether a line ends here or a space follows. -/
def endsLineOrSpace (c : Option Char) : Bool := endsLine c || c = some ' '

/-- Whether a word ends here: at the end of a line, a space or a tab. -/
def endsWord (c : Option Char) : Bool := endsLineOrSpace c || c = some '\t'

/-- Whether a character may stand in a text at all. -/
def isPrintable (c : Char) : Bool :=
  let n := c.toNat
  n = 9 || n = 10 || n = 13 || (0x20 ≤ n && n ≤ 0x7E) || n = 0x85 || (0xA0 ≤ n && n ≤ 0xFFFD) ||
    0x10000 ≤ n

/-- Whether a character may stand in a name: an ASCII letter or digit, a hyphen or an underscore. -/
def isNameChar (c : Char) : Bool := c.isAlphanum || c = '-' || c = '_'

/-! ### Positions -/

/-- A position in a text. -/
structure Cursor where
  /-- What is left of the text. -/
  rest : List Char
  /-- The number of characters before the position. -/
  index : Nat := 0
  /-- The number of lines before the position. -/
  line : Nat := 0
  /-- The number of characters before the position in its line. -/
  column : Nat := 0

namespace Cursor

/-- The position one character further. A byte order mark has no width. -/
def next (c : Cursor) : Cursor :=
  match c.rest with
  | [] => c
  | x :: rest =>
    if isBreak x then ⟨rest, c.index + 1, c.line + 1, 0⟩
    else ⟨rest, c.index + 1, c.line, if x = byteOrderMark then c.column else c.column + 1⟩

/-- The position some characters further. -/
def advance (c : Cursor) : Nat → Cursor
  | 0 => c
  | n + 1 => c.next.advance n

/-- Whether the end of a document or the start of another one is marked here. -/
def atMarker (c : Cursor) : Bool :=
  match c.rest with
  | x :: y :: z :: rest => x = y && y = z && (x = '-' || x = '.') && endsWord rest.head?
  | _ => false

end Cursor

/-! ### Reading -/

/-- Reading from a position in a text. -/
abbrev Scan (α : Type) : Type := StateT Cursor (Except Failure) α

/-- The failure of a text that is not well formed. -/
def malformed : Failure := .unworded .yamlText

namespace Scan

/-- The character some places ahead. -/
def ahead (n : Nat) : Scan (Option Char) := return (← get).rest[n]?

/-- The next character. -/
def peek : Scan (Option Char) := ahead 0

/-- Moves forward. -/
def skip (n : Nat) : Scan Unit := modify fun c => c.advance n

/-- The longest run of characters of a class. -/
def takeWhile (p : Char → Bool) : Scan (List Char) := do
  let cs := (← get).rest.takeWhile p
  skip cs.length
  return cs

/-- Demands something of the text. -/
def demand (b : Bool) : Scan Unit := unless b do throw malformed

/-- Reads a line end, if one is here. All but the two separators count as a line feed. -/
def lineBreak : Scan (List Char) := do
  match ← peek with
  | some c =>
    if isBreak c then
      skip 1
      return [if c.toNat = 0x85 then '\n' else c]
    else return []
  | none => return []

/-- Reads a comment up to the end of its line, if one starts here. -/
def comment : Scan Unit := do
  if (← peek) = some '#' then let _ ← takeWhile fun c => !isBreak c

/-- A bound for the rounds of a loop that moves forward in each of them. -/
def rounds : Scan Nat := return (← get).rest.length + 1

end Scan

end Yaml

end ExactNumerics
