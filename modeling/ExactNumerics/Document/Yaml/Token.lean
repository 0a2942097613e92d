/-!
# Tokens

A text is first cut into tokens. Indentation becomes tokens as well, so the structure of a document
can be read off its tokens alone.

## Main definitions

* `Yaml.Token`: the tokens.
-/

namespace ExactNumerics

namespace Yaml

/-- The tokens of a text. -/
inductive Token where
  /-- A directive that names the version, by its first number. -/
  | version (major : Nat)
  /-- A directive that lets a handle stand for the start of a tag. -/
  | handle (name start : String)
  /-- A directive that means nothing. -/
  | reserved
  /-- The mark `---`. -/
  | documentStart
  /-- The mark `...`. -/
  | documentEnd
  /-- A more indented sequence starts. -/
  | blockSequenceStart
  /-- A more indented mapping starts. -/
  | blockMappingStart
  /-- A more indented sequence or mapping ends. -/
  | blockEnd
  /-- The opening bracket of a sequence. -/
  | flowSequenceStart
  /-- The closing bracket of a sequence. -/
  | flowSequenceEnd
  /-- The opening brace of a mapping. -/
  | flowMappingStart
  /-- The closing brace of a mapping. -/
  | flowMappingEnd
  /-- The comma between entries. -/
  | flowEntry
  /-- The dash in front of an item. -/
  | blockEntry
  /-- A key follows. -/
  | key
  /-- A value follows. -/
  | value
  /-- The node with this anchor is meant. -/
  | alias (name : String)
  /-- The next node has this name. -/
  | anchor (name : String)
  /-- The next node has this tag, given in full or with a handle. -/
  | tag (handle : Option String) (suffix : String)
  /-- A scalar, and whether it stands there without quotes. -/
  | scalar (text : List Char) (plain : Bool)
  deriving DecidableEq, Repr

end Yaml

end ExactNumerics
