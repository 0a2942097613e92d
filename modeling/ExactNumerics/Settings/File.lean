import ExactNumerics.Document.Yaml.Content
import ExactNumerics.Settings.Field

/-!
# Settings files

A settings file holds a mapping of field names to values, in JSON or YAML as its ending tells. If
the mapping has a section for this library, the section counts in its place. Keys that name no
field are reported, but do no harm as long as they are texts.

## Main definitions

* `Settings.File.Format.ofPath?`: the format that the ending of a path tells.
* `Settings.File.section?`: the mapping that counts.
* `Settings.File.read`: the settings in a file, with the warnings about it.
-/

namespace ExactNumerics

namespace Settings

namespace File

/-! ### Formats -/

/-- The formats of settings files. -/
inductive Format where
  /-- JSON. -/
  | json
  /-- YAML. -/
  | yaml
  deriving DecidableEq, Repr

/-- The last part of a path. -/
def fileName (path : String) : List Char :=
  let parts := (path.toList.splitOn '/').filter fun part => part ≠ [] && part ≠ ['.']
  parts.getLastD []

/-- The ending of a file name, from its last point on. A point at either end makes no ending. -/
def ending (name : List Char) : List Char :=
  let last := (name.reverse.takeWhile (· ≠ '.')).reverse
  if last.isEmpty || name.length ≤ last.length + 1 then [] else '.' :: last

/-- The format that the ending of a path tells. -/
def Format.ofPath? (path : String) : Option Format :=
  match String.ofList (ending (fileName path)) with
  | ".json" => some .json
  | ".yaml" | ".yml" => some .yaml
  | _ => none

/-- A text in which every line end is a line feed. -/
def unifiedLines : List Char → List Char
  | '\r' :: '\n' :: rest => '\n' :: unifiedLines rest
  | '\r' :: rest => '\n' :: unifiedLines rest
  | c :: rest => c :: unifiedLines rest
  | [] => []

/-- The value in a text, in which an integer has a limit on its digits. -/
def Format.parse (format : Format) (limit : DigitLimit) (text : String) : Except Failure Value :=
  let cs := unifiedLines text.toList
  match format with
  | .json => Json.read limit cs
  | .yaml => Yaml.read limit cs

/-! ### Mappings -/

/-- The entries that count: those of the section for this library, if it is a mapping. -/
def section? (entries : List (Value × Value)) : List (Value × Value) :=
  match Value.entry? "numcore" entries with
  | some (.mapping inner) => inner
  | _ => entries

/-- The entries of a file; an empty file has none. -/
def entriesOf (path : String) : Value → Except Failure (List (Value × Value))
  | .null => .ok []
  | .mapping entries => .ok (section? entries)
  | _ => .error (.notMapping path)

/-- The keys that name no field, if all of them are texts. -/
def unknownKeys : List (Value × Value) → Except Failure (List String)
  | [] => .ok []
  | (.text name, _) :: entries => do
    let names ← unknownKeys entries
    return if Field.names.contains name then names else name :: names
  | _ :: _ => .error (.unworded .type)

/-- The warning about keys that name no field. -/
def warnings (path : String) (unknown : List String) : List String :=
  if unknown.isEmpty then []
  else
    let names := ", ".intercalate (unknown.mergeSort fun a b => a ≤ b)
    [s!"Ignoring unknown config keys in {path}: {names}"]

/-- The settings of some entries, with the warnings about them. -/
def ofEntries (path : String) (entries : List (Value × Value)) :
    Except Failure (Settings × List String) := do
  let unknown ← unknownKeys entries
  let settings ← ofFields fun field => Value.entry? field.name entries
  return (settings, warnings path unknown)

/-- The settings in a file, whose text is missing if there is no such file. -/
def read (limit : DigitLimit) (path : String) (text? : Option String) :
    Except Failure (Settings × List String) := do
  match Format.ofPath? path, text? with
  | none, _ => throw .unknownFileKind
  | some _, none => throw (.unworded .missingFile)
  | some format, some text => ofEntries path (← entriesOf path (← format.parse limit text))

end File

end Settings

end ExactNumerics
