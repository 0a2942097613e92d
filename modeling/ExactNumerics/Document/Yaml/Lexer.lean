import ExactNumerics.Document.Yaml.Scalar
import ExactNumerics.Document.Yaml.Token

/-!
# Cutting a text into tokens

A key may stand on one line in front of its colon without any mark, so the start of everything
that could be such a key is remembered as a candidate. When the colon comes, the tokens that
announce a key are put in at that place.

Outside brackets, indentation opens and closes sequences and mappings.

A text that cannot be cut to its end still has the tokens in front of that place, and whoever reads
them may find another failure there first. A candidate is not settled before it is known whether it
is a key, so the tokens from the first candidate on do not count then.

## Main definitions

* `Yaml.Tokens`: the tokens in front of the end of a text or of a failure.
* `Yaml.Lexer`: the state between two tokens.
* `Yaml.Lexer.next`: the next token.
* `Yaml.tokens`: the tokens of a text.
-/

namespace ExactNumerics

namespace Yaml

/-- The tokens in front of the end of a text or of a failure. -/
structure Tokens where
  /-- The tokens. -/
  settled : List Token
  /-- The failure after them; none if the text ends there. -/
  failure? : Option Failure

/-- The start of something that may turn out to be a key. -/
structure Candidate where
  /-- The number of tokens before it. -/
  place : Nat
  /-- Nothing else can stand here. -/
  required : Bool
  /-- Where it starts. -/
  start : Cursor

/-- The state between two tokens. -/
structure Lexer where
  /-- The position in the text. -/
  cursor : Cursor
  /-- The tokens so far. -/
  tokens : Array Token := #[]
  /-- The column of the innermost sequence or mapping outside brackets. -/
  indent : Int := -1
  /-- The columns of those around it. -/
  outer : List Int := []
  /-- The number of open brackets and braces. -/
  depth : Nat := 0
  /-- A key may start here. -/
  keyAllowed : Bool := true
  /-- The candidates, at most one for each number of open brackets. -/
  candidates : List (Nat × Candidate) := []

namespace Lexer

/-- A step of the lexer. -/
abbrev Step (α : Type) : Type := StateT Lexer (Except Failure) α

/-- Reads from the text. -/
def reading {α : Type} (s : Scan α) : Step α := do
  let l ← get
  let (x, cursor) ← s.run l.cursor
  set { l with cursor }
  return x

/-- The character some places ahead. -/
def ahead (n : Nat) : Step (Option Char) := return (← get).cursor.rest[n]?

/-- Adds a token. -/
def emit (t : Token) : Step Unit := modify fun l => { l with tokens := l.tokens.push t }

/-- Says whether a key may start next. -/
def allowKey (b : Bool) : Step Unit := modify fun l => { l with keyAllowed := b }

/-- Demands something of the text. -/
def demand (b : Bool) : Step Unit := unless b do throw malformed

/-! ### Candidates -/

/-- Drops the candidate inside the current brackets; a required one must not be dropped. -/
def dropCandidate : Step Unit := do
  let l ← get
  match l.candidates.lookup l.depth with
  | some c =>
    demand !c.required
    set { l with candidates := l.candidates.filter (·.1 ≠ l.depth) }
  | none => return

/-- Whether a candidate is of an earlier line or got too long. -/
def isStale (l : Lexer) (c : Candidate) : Bool :=
  c.start.line ≠ l.cursor.line || 1024 < l.cursor.index - c.start.index

/-- Drops the candidates of earlier lines and those that got too long. -/
def dropStale : Step Unit := do
  let l ← get
  demand !(l.candidates.any fun (_, c) => l.isStale c && c.required)
  set { l with candidates := l.candidates.filter fun (_, c) => !l.isStale c }

/-- The tokens in front of the first candidate. -/
def settled (l : Lexer) : List Token :=
  let places := (l.candidates.filter fun (_, c) => !l.isStale c).map fun (_, c) => c.place
  l.tokens.toList.take (places.foldl min l.tokens.size)

/-- Makes what starts here a candidate. -/
def saveCandidate : Step Unit := do
  let l ← get
  if l.keyAllowed then
    dropCandidate
    let required := l.depth = 0 && l.indent = l.cursor.column
    let candidate : Candidate := ⟨l.tokens.size, required, l.cursor⟩
    modify fun l => { l with candidates := (l.depth, candidate) :: l.candidates }

/-! ### Indentation -/

/-- Closes what is indented more than the given column. -/
def closeWhile (column : Int) (indent : Int) (outer : List Int) : Step Unit := do
  if column < indent then
    emit .blockEnd
    match outer with
    | next :: outer => closeWhile column next outer
    | [] => modify fun l => { l with indent := -1, outer := [] }
  else modify fun l => { l with indent, outer }

/-- Closes what is indented more than the given column, outside brackets. -/
def closeTo (column : Int) : Step Unit := do
  let l ← get
  if l.depth = 0 then closeWhile column l.indent l.outer

/-- Opens something at a column that is indented more; whether it did. -/
def openAt (column : Nat) : Step Bool := do
  let l ← get
  if l.indent < column then
    set { l with indent := (column : Int), outer := l.indent :: l.outer }
    return true
  else return false

/-! ### Punctuation -/

/-- A token of one character. -/
def single (t : Token) : Step Unit := do
  reading (Scan.skip 1)
  emit t

/-- An opening bracket or brace. -/
def openBracket (t : Token) : Step Unit := do
  saveCandidate
  modify fun l => { l with depth := l.depth + 1, keyAllowed := true }
  single t

/-- A closing bracket or brace; one must be open. -/
def closeBracket (t : Token) : Step Unit := do
  dropCandidate
  demand ((← get).depth ≠ 0)
  modify fun l => { l with depth := l.depth - 1, keyAllowed := false }
  single t

/-- A comma. -/
def comma : Step Unit := do
  allowKey true
  dropCandidate
  single .flowEntry

/-- The dash in front of an item. -/
def dash : Step Unit := do
  let l ← get
  if l.depth = 0 then
    demand l.keyAllowed
    if ← openAt l.cursor.column then emit .blockSequenceStart
  allowKey true
  dropCandidate
  single .blockEntry

/-- The question mark in front of a key. -/
def questionMark : Step Unit := do
  let l ← get
  if l.depth = 0 then
    demand l.keyAllowed
    if ← openAt l.cursor.column then emit .blockMappingStart
  allowKey (l.depth = 0)
  dropCandidate
  single .key

/-- The colon in front of a value. It makes the candidate a key. -/
def colon : Step Unit := do
  let l ← get
  match l.candidates.lookup l.depth with
  | some c =>
    modify fun l => { l with candidates := l.candidates.filter (·.1 ≠ l.depth) }
    let opened ← if l.depth = 0 then openAt c.start.column else pure false
    let announced := if opened then #[Token.blockMappingStart, .key] else #[Token.key]
    modify fun l =>
      { l with
        tokens := l.tokens.extract 0 c.place ++ announced ++ l.tokens.extract c.place l.tokens.size
        keyAllowed := false }
  | none =>
    if l.depth = 0 then
      demand l.keyAllowed
      if ← openAt l.cursor.column then emit .blockMappingStart
    allowKey (l.depth = 0)
    dropCandidate
  single .value

/-! ### Documents and directives -/

/-- Ends everything that is open. -/
def endBlocks : Step Unit := do
  closeTo (-1)
  dropCandidate
  allowKey false

/-- The mark of the start or the end of a document. -/
def marker (t : Token) : Step Unit := do
  endBlocks
  reading (Scan.skip 3)
  emit t

/-- A number in a directive. -/
def directiveNumber : Scan Nat := do
  let digits ← Scan.takeWhile Char.isDigit
  Scan.demand !digits.isEmpty
  return Json.numberOf digits

/-- Two hexadecimal digits after a percent sign. -/
def uriByte : Scan Nat := do
  Scan.skip 1
  let digits := ((← get).rest.take 2).filterMap Json.hexDigit?
  Scan.demand (digits.length = 2)
  Scan.skip 2
  return digits.foldl (fun n d => 16 * n + d) 0

/-- The bytes of consecutive percent signs. -/
def uriBytes : Nat → Scan (List Nat)
  | 0 => return []
  | fuel + 1 => do
    if (← Scan.peek) = some '%' then
      let b ← uriByte
      return b :: (← uriBytes fuel)
    else return []

/-- The text of bytes in UTF-8. -/
def decoded (bytes : List Nat) : Scan (List Char) := do
  match String.fromUTF8? (bytes.map UInt8.ofNat).toByteArray with
  | some s => return s.toList
  | none => throw malformed

/-- Whether a character may stand in a tag as it is. -/
def isUriChar (c : Char) : Bool :=
  c.isAlphanum || "-;/?:@&=+$,_.!~*'()[]".toList.contains c

/-- The rest of a tag. -/
def uriParts : Nat → Scan (List Char)
  | 0 => return []
  | fuel + 1 => do
    let cs ← Scan.takeWhile isUriChar
    if (← Scan.peek) = some '%' then
      let bytes ← uriBytes (← Scan.rounds)
      let text ← decoded bytes
      return cs ++ text ++ (← uriParts fuel)
    else return cs

/-- A tag, or the part of it after its handle; it must not be empty. -/
def uri : Scan String := do
  let cs ← uriParts (← Scan.rounds)
  Scan.demand !cs.isEmpty
  return String.ofList cs

/-- A handle: an exclamation mark, or a name between two of them. -/
def tagHandle : Scan String := do
  Scan.demand ((← Scan.peek) = some '!')
  Scan.skip 1
  if (← Scan.peek) = some ' ' then return "!"
  let name ← Scan.takeWhile isNameChar
  Scan.demand ((← Scan.peek) = some '!')
  Scan.skip 1
  return String.ofList ('!' :: name ++ ['!'])

/-- Spaces. -/
def spaces : Scan Unit := do let _ ← Scan.takeWhile (· = ' ')

/-- The words of a directive. -/
def directiveWords : Scan Token := do
  Scan.skip 1
  let name ← Scan.takeWhile isNameChar
  Scan.demand !name.isEmpty
  Scan.demand (endsLineOrSpace (← Scan.peek))
  match String.ofList name with
  | "YAML" => do
    spaces
    let major ← directiveNumber
    Scan.demand ((← Scan.peek) = some '.')
    Scan.skip 1
    let _ ← directiveNumber
    Scan.demand (endsLineOrSpace (← Scan.peek))
    return .version major
  | "TAG" => do
    spaces
    let handle ← tagHandle
    Scan.demand ((← Scan.peek) = some ' ')
    spaces
    let start ← uri
    Scan.demand (endsLineOrSpace (← Scan.peek))
    return .handle handle start
  | _ => do
    let _ ← Scan.takeWhile fun c => !isBreak c
    return .reserved

/-- A directive up to the end of its line. -/
def directive : Scan Token := do
  let t ← directiveWords
  spaces
  Scan.comment
  Scan.demand (endsLine (← Scan.peek))
  let _ ← Scan.lineBreak
  return t

/-! ### Names and tags -/

/-- The name after an asterisk or an ampersand. -/
def anchorName : Scan String := do
  Scan.skip 1
  let name ← Scan.takeWhile isNameChar
  Scan.demand !name.isEmpty
  let c ← Scan.peek
  Scan.demand (endsWord c || c.any fun c => "?:,]\x7d%@`".toList.contains c)
  return String.ofList name

/-- Whether a word holds a second exclamation mark, which ends a handle. -/
def hasHandle (rest : List Char) : Bool :=
  ((rest.drop 1).takeWhile fun c => !endsLineOrSpace (some c)).contains '!'

/-- A tag. -/
def tagToken : Scan Token := do
  let rest := (← get).rest
  let t ← match rest[1]? with
    | some '<' => do
      Scan.skip 2
      let suffix ← uri
      Scan.demand ((← Scan.peek) = some '>')
      Scan.skip 1
      pure (Token.tag none suffix)
    | c =>
      if endsWord c then do
        Scan.skip 1
        pure (Token.tag none "!")
      else if hasHandle rest then do
        let handle ← tagHandle
        pure (Token.tag (some handle) (← uri))
      else do
        Scan.skip 1
        pure (Token.tag (some "!") (← uri))
  Scan.demand (endsLineOrSpace (← Scan.peek))
  return t

/-- A token that may start a key. -/
def keyStart (s : Scan Token) : Step Unit := do
  saveCandidate
  allowKey false
  emit (← reading s)

/-! ### The next token -/

/-- Moves over blanks, comments and line ends. A new line outside brackets may start with a key. -/
def skipBlanks : Nat → Step Unit
  | 0 => throw malformed
  | fuel + 1 => do
    reading spaces
    reading Scan.comment
    match ← reading Scan.lineBreak with
    | [] => return
    | _ =>
      if (← get).depth = 0 then allowKey true
      skipBlanks fuel

/-- A block scalar. -/
def block (folded : Bool) : Step Unit := do
  allowKey true
  dropCandidate
  let text ← reading (blockScalar folded (← get).indent)
  emit (.scalar text false)

/-- A plain scalar. -/
def plain : Step Unit := do
  saveCandidate
  let l ← get
  let (text, broken) ← reading (plainScalar (l.depth ≠ 0) (l.indent + 1).toNat)
  allowKey broken
  emit (.scalar text true)

/-- Whether a plain scalar starts here. -/
def startsPlain (depth : Nat) (c : Char) (next : Option Char) : Bool :=
  if endsWord (some c) then false
  else if !("-?:,[]\x7b\x7d#&*!|>%@`".toList ++ [Char.ofNat 0x27, Char.ofNat 0x22]).contains c then
    true
  else !endsWord next && (c = '-' || (depth = 0 && (c = '?' || c = ':')))

/-- The token that starts with the given character. -/
def token (c : Char) : Step Unit := do
  let l ← get
  let next ← ahead 1
  let inFlow := l.depth ≠ 0
  let first := l.cursor.column = 0
  if c = '%' && first then
    endBlocks
    emit (← reading directive)
  else if c = '-' && first && l.cursor.atMarker then marker .documentStart
  else if c = '.' && first && l.cursor.atMarker then marker .documentEnd
  else if c = '[' then openBracket .flowSequenceStart
  else if c = '\x7b' then openBracket .flowMappingStart
  else if c = ']' then closeBracket .flowSequenceEnd
  else if c = '\x7d' then closeBracket .flowMappingEnd
  else if c = ',' then comma
  else if c = '-' && endsWord next then dash
  else if c = '?' && (inFlow || endsWord next) then questionMark
  else if c = ':' && (inFlow || endsWord next) then colon
  else if c = '*' then keyStart (return .alias (← anchorName))
  else if c = '&' then keyStart (return .anchor (← anchorName))
  else if c = '!' then keyStart tagToken
  else if c = '|' && !inFlow then block false
  else if c = '>' && !inFlow then block true
  else if c = Char.ofNat 0x27 then keyStart (return .scalar (← quotedScalar false) false)
  else if c = Char.ofNat 0x22 then keyStart (return .scalar (← quotedScalar true) false)
  else if startsPlain l.depth c next then plain
  else throw malformed

/-- Reads the next token, if there is one. -/
def next : Step Bool := do
  skipBlanks ((← get).cursor.rest.length + 1)
  dropStale
  closeTo (← get).cursor.column
  match ← ahead 0 with
  | none => endBlocks; return false
  | some c => token c; return true

/-- The tokens up to the end of the text or to a failure. -/
def untilEnd : Nat → Lexer → Tokens
  | 0, l => ⟨l.settled, some malformed⟩
  | fuel + 1, l =>
    match next.run l with
    | .ok (true, l) => untilEnd fuel l
    | .ok (false, l) => ⟨l.tokens.toList, none⟩
    | .error failure => ⟨l.settled, some failure⟩

end Lexer

/-- The tokens of a text, which may start with a byte order mark. -/
def tokens (cs : List Char) : Tokens :=
  let start : Cursor := ⟨cs, 0, 0, 0⟩
  let start := if cs.head? = some byteOrderMark then start.next else start
  Lexer.untilEnd (cs.length + 1) ⟨start, #[], -1, [], 0, true, []⟩

end Yaml

end ExactNumerics
