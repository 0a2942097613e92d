import ExactNumerics.Document.Json
import ExactNumerics.Document.Yaml.Cursor

/-!
# Scalars in a text

A scalar stands there plainly, between quotes, or as an indented block. In the first two forms a
line end with blanks around it counts as a space, and with empty lines after it as those line ends.

## Main definitions

* `Yaml.plainScalar`: a scalar without quotes.
* `Yaml.quotedScalar`: a scalar between single or double quotes.
* `Yaml.blockScalar`: a scalar as a block of lines, kept or folded.
-/

namespace ExactNumerics

-- powers of natural numbers are the ones of the core library
attribute [local instance (high)] instPowNat

namespace Yaml

open Scan

/-- What a line end stands for in a running text: itself if it is a separator, a space if no empty
line follows, and otherwise just the line ends after it. -/
def foldedBreak (first : List Char) (more : List Char) : List Char :=
  (if first ≠ ['\n'] then first else if more.isEmpty then [' '] else []) ++ more

/-! ### Plain scalars -/

/-- How many characters of a text belong to a word of a plain scalar. -/
def plainLength (flow : Bool) : List Char → Nat
  | [] => 0
  | c :: rest =>
    let isOneOf (s : String) (x : Option Char) : Bool := x.any fun x => s.toList.contains x
    let endsKey := c = ':' && (endsWord rest.head? || flow && isOneOf ",[]\x7b\x7d" rest.head?)
    if endsWord (some c) || endsKey || flow && isOneOf ",?[]\x7b\x7d" (some c) then 0
    else plainLength flow rest + 1

/-- The line ends among line ends and spaces; nothing if a document ends on the way. -/
def plainBreaks : Nat → Scan (Option (List Char))
  | 0 => throw malformed
  | fuel + 1 => do
    let _ ← takeWhile (· = ' ')
    match ← lineBreak with
    | [] => return some []
    | b =>
      if (← get).atMarker then return none
      return (← plainBreaks fuel).map (b ++ ·)

/-- What stands between two words of a plain scalar, and whether a line ends in it. -/
def plainGap : Scan (List Char × Bool) := do
  let spaces ← takeWhile (· = ' ')
  match ← lineBreak with
  | [] => return (spaces, false)
  | b =>
    if (← get).atMarker then return ([], true)
    match ← plainBreaks (← rounds) with
    | some more => return (foldedBreak b more, true)
    | none => return ([], true)

/-- The words of a plain scalar from here on, with what stands before them, and whether a line ends
after the last one. -/
def plainWords (flow : Bool) (indent : Nat) : Nat → List Char → Bool → Scan (List Char × Bool)
  | 0, _, _ => throw malformed
  | fuel + 1, gap, broken => do
    let rest := (← get).rest
    let n := plainLength flow rest
    if n = 0 || rest.head? = some '#' then return ([], broken)
    skip n
    let word := gap ++ rest.take n
    let (gap, broken) ← plainGap
    let c ← get
    if gap.isEmpty || c.rest.head? = some '#' || (!flow && c.column < indent) then
      return (word, broken)
    let (words, broken) ← plainWords flow indent fuel gap broken
    return (word ++ words, broken)

/-- A plain scalar, and whether a line ends after it. Outside brackets it ends with a line that is
indented less than it. -/
def plainScalar (flow : Bool) (indent : Nat) : Scan (List Char × Bool) := do
  plainWords flow indent (← rounds) [] false

/-! ### Quoted scalars -/

/-- The character that a letter after a backslash stands for. -/
def escapeOf? (c : Char) : Option Char :=
  let table : List (Char × Nat) :=
    [('0', 0), ('a', 7), ('b', 8), ('t', 9), ('\t', 9), ('n', 10), ('v', 11), ('f', 12),
     ('r', 13), ('e', 0x1B), (' ', 0x20), (Char.ofNat 0x22, 0x22), ('/', 0x2F),
     (Char.ofNat 0x5C, 0x5C), ('N', 0x85), ('_', 0xA0), ('L', 0x2028), ('P', 0x2029)]
  (table.lookup c).map Char.ofNat

/-- The number of digits after a letter that announces a code point. -/
def codeLength? (c : Char) : Option Nat :=
  if c = 'x' then some 2 else if c = 'u' then some 4 else if c = 'U' then some 8 else none

/-- The character of a code point; a number that is none has no character. -/
def codePoint (n : Nat) : Except Failure Char :=
  if n < 0x110000 then .ok (Json.unitChar n)
  else if n < 2 ^ (31 : Nat) then .error (.unworded .value)
  else .error (.unworded .overflow)

/-- A code point of the given number of hexadecimal digits. -/
def hexCode (count : Nat) : Scan Char := do
  let digits := ((← get).rest.take count).filterMap Json.hexDigit?
  demand (digits.length = count)
  skip count
  codePoint (digits.foldl (fun n d => 16 * n + d) 0)

/-- The line ends among line ends and blanks; a document must not end among them. -/
def quotedBreaks : Nat → Scan (List Char)
  | 0 => throw malformed
  | fuel + 1 => do
    demand !(← get).atMarker
    let _ ← takeWhile fun c => c = ' ' || c = '\t'
    match ← lineBreak with
    | [] => return []
    | b => return b ++ (← quotedBreaks fuel)

/-- What a backslash and the characters after it stand for. -/
def escaped : Scan (List Char) := do
  skip 1
  match ← peek with
  | none => throw malformed
  | some c =>
    if isBreak c then
      let _ ← lineBreak
      quotedBreaks (← rounds)
    else
      skip 1
      match escapeOf? c, codeLength? c with
      | some x, _ => return [x]
      | none, some count => return [← hexCode count]
      | none, none => throw malformed

/-- The characters of a quoted scalar up to a blank, a line end or the closing quote. -/
def quotedWord (double : Bool) : Nat → Scan (List Char)
  | 0 => throw malformed
  | fuel + 1 => do
    let single := Char.ofNat 0x27
    let quote := Char.ofNat 0x22
    let backslash := Char.ofNat 0x5C
    let cs ← takeWhile fun c => !endsWord (some c) && c ≠ single && c ≠ quote && c ≠ backslash
    match ← peek with
    | none => return cs
    | some c =>
      if endsWord (some c) then return cs
      else if double && c = backslash then
        let x ← escaped
        return cs ++ x ++ (← quotedWord double fuel)
      else if !double && c = single && (← ahead 1) = some single then
        skip 2
        return cs ++ single :: (← quotedWord double fuel)
      else if c = (if double then quote else single) then return cs
      else
        skip 1
        return cs ++ c :: (← quotedWord double fuel)

/-- What stands between two words of a quoted scalar. -/
def quotedGap : Scan (List Char) := do
  let blanks ← takeWhile fun c => c = ' ' || c = '\t'
  demand (← peek).isSome
  match ← lineBreak with
  | [] => return blanks
  | b => return foldedBreak b (← quotedBreaks (← rounds))

/-- The rest of a quoted scalar after its opening quote. -/
def quotedWords (double : Bool) : Nat → Scan (List Char)
  | 0 => throw malformed
  | fuel + 1 => do
    let word ← quotedWord double (← rounds)
    if (← peek) = some (Char.ofNat (if double then 0x22 else 0x27)) then
      skip 1
      return word
    let gap ← quotedGap
    return word ++ gap ++ (← quotedWords double fuel)

/-- A quoted scalar. -/
def quotedScalar (double : Bool) : Scan (List Char) := do
  skip 1
  quotedWords double (← rounds)

/-! ### Block scalars -/

/-- What happens to the line ends after the last line of a block. -/
inductive Chomping where
  /-- None of them is kept. -/
  | strip
  /-- The first one is kept. -/
  | clip
  /-- All of them are kept. -/
  | keep
  deriving DecidableEq

/-- A sign for the line ends after a block, if one is here. -/
def chomping? : Scan (Option Chomping) := do
  match ← peek with
  | some '+' => skip 1; return some .keep
  | some '-' => skip 1; return some .strip
  | _ => return none

/-- A digit for the indentation of a block, if one is here; it must not be zero. -/
def increment? : Scan (Option Nat) := do
  match ← peek with
  | some c =>
    if c.isDigit then
      demand (c ≠ '0')
      skip 1
      return some (c.toNat - 0x30)
    else return none
  | none => return none

/-- The line ends before the first line of a block, and its indentation. -/
def leadingBreaks : Nat → Nat → Scan (List Char × Nat)
  | 0, _ => throw malformed
  | fuel + 1, widest => do
    let _ ← takeWhile (· = ' ')
    let widest := max widest (← get).column
    match ← lineBreak with
    | [] => return ([], widest)
    | b =>
      let (more, widest) ← leadingBreaks fuel widest
      return (b ++ more, widest)

/-- Moves over spaces up to a column. -/
def indentTo (indent : Nat) : Scan Unit := do
  let c ← get
  skip ((c.rest.take (indent - c.column)).takeWhile (· = ' ')).length

/-- The line ends between two lines of a block. -/
def blockBreaks (indent : Nat) : Nat → Scan (List Char)
  | 0 => throw malformed
  | fuel + 1 => do
    indentTo indent
    match ← lineBreak with
    | [] => return []
    | b => return b ++ (← blockBreaks indent fuel)

/-- Whether a line starts with a space or a tab. -/
def startsBlank (c : Option Char) : Bool := c = some ' ' || c = some '\t'

/-- The lines of a block from here on: their text, the last line end, and the line ends after it.
In a folded block, a line end between two lines that do not start with a blank becomes a space. -/
def blockLines (folded : Bool) (indent : Nat) :
    Nat → List Char → Scan (List Char × List Char × List Char)
  | 0, _ => throw malformed
  | fuel + 1, before => do
    let c ← get
    if c.column ≠ indent || c.rest.isEmpty then return ([], [], before)
    let flush := !startsBlank (← peek)
    let line ← takeWhile fun c => !isBreak c
    let last ← lineBreak
    let after ← blockBreaks indent (← rounds)
    let d ← get
    if d.column = indent && !d.rest.isEmpty then
      let joined :=
        if folded && last = ['\n'] && flush && !startsBlank d.rest.head? then
          if after.isEmpty then [' '] else []
        else last
      let (lines, last, after) ← blockLines folded indent fuel after
      return (before ++ line ++ joined ++ lines, last, after)
    else return (before ++ line, last, after)

/-- A block scalar inside something with the given indentation. -/
def blockScalar (folded : Bool) (outer : Int) : Scan (List Char) := do
  skip 1
  let sign ← chomping?
  let increment ← increment?
  let sign := sign.or (← if sign.isNone then chomping? else pure none)
  demand (endsLineOrSpace (← peek))
  let _ ← takeWhile (· = ' ')
  comment
  demand (endsLine (← peek))
  let _ ← lineBreak
  let least := max 1 (outer + 1).toNat
  let (before, indent) ← match increment with
    | some n => do
      let indent := least + n - 1
      pure (← blockBreaks indent (← rounds), indent)
    | none => do
      let (before, widest) ← leadingBreaks (← rounds) 0
      pure (before, max least widest)
  let (text, last, after) ← blockLines folded indent (← rounds) before
  match sign.getD .clip with
  | .strip => return text
  | .clip => return text ++ last
  | .keep => return text ++ last ++ after

end Yaml

end ExactNumerics
