import ExactNumerics.Document.Yaml.Merge
import ExactNumerics.Value.Mapping

/-!
# The content of a document

The nodes of a document get their content level by level. A scalar has its value at once; what is
inside a sequence or a mapping waits until the level around it is done. So of two failures the one
at the lesser depth is reported, and of two at the same depth the first. A node that stands in
several places is looked at once.

## Main definitions

* `Yaml.Content`: what a node was found to be.
* `Yaml.Builder`: what is known while the nodes are looked at.
* `Yaml.Graph.toValue`: the value of a document.
* `Yaml.read`: the value of a text.
-/

namespace ExactNumerics

namespace Yaml

/-! ### Kinds of nodes -/

/-- The kinds of nodes that a tag can ask for. -/
inductive Kind where
  /-- A scalar of any kind. -/
  | scalar
  /-- A sequence. -/
  | sequence
  /-- A sequence of mappings with one entry each. -/
  | pairs
  /-- A mapping. -/
  | mapping
  /-- A mapping of which only the keys count. -/
  | set
  deriving DecidableEq

/-- The names of the standard tags of scalars. -/
def scalarNames : List String := ["null", "bool", "int", "float", "binary", "timestamp", "str"]

/-- The kind that a tag asks for. -/
def Kind.ofTag? (tag : String) : Option Kind :=
  let is (name : String) : Bool := tag = Node.standardStart ++ name
  if scalarNames.any is then some .scalar
  else if is "seq" then some .sequence
  else if is "omap" || is "pairs" then some .pairs
  else if is "map" then some .mapping
  else if is "set" then some .set
  else none

/-- The kind of a node: that of its tag, or else that of the way it is written. -/
def Node.kind? : Node → Option Kind
  | scalar tag .. => tag.elim (some .scalar) Kind.ofTag?
  | sequence tag _ => tag.elim (some .sequence) Kind.ofTag?
  | mapping tag _ => tag.elim (some .mapping) Kind.ofTag?

/-! ### Level by level -/

/-- What a node was found to be. -/
inductive Content where
  /-- A value. -/
  | value (v : Value)
  /-- A list of the nodes with these numbers. -/
  | list (items : List Nat)
  /-- A mapping with these keys and values. -/
  | entries (es : List (Nat × Nat))

/-- What is known while the nodes are looked at. -/
structure Builder where
  /-- The nodes. -/
  nodes : Array Node
  /-- The content of the nodes that were met. -/
  contents : Array (Option Content)
  /-- The sequences and mappings of the next level, the last one first. -/
  waiting : List Nat := []
  /-- The limit on the digits of integers. -/
  digits : DigitLimit := none

/-- Looking at nodes. -/
abbrev Build (α : Type) : Type := StateT Builder (Except Failure) α

namespace Build

/-- The node with a number. -/
def node (number : Nat) : Build Node := return (← get).nodes.getD number Node.blank

/-- Says what a node is. -/
def settle (number : Nat) (c : Content) : Build Unit :=
  modify fun b => { b with contents := b.contents.setIfInBounds number (some c) }

/-- Uses the merge keys of a mapping. -/
def merge (number : Nat) : Build Unit := do
  let b ← get
  let ((), nodes) ← (Yaml.merge number).run b.nodes
  set { b with nodes }

/-- The text of a scalar, or of the scalar that stands for a mapping. -/
def text? (nodes : Array Node) : Nat → Node → Option (List Char)
  | 0, _ => none
  | fuel + 1, n =>
    match n with
    | .scalar _ text _ => some text
    | .mapping _ es =>
      match es.find? fun (k, _) => (nodes.getD k Node.blank).isDefaultKey with
      | some (_, v) => text? nodes fuel (nodes.getD v Node.blank)
      | none => none
    | .sequence .. => none

/-- The value of a node that has to be a scalar. A mapping can have the value of a scalar, but not
as a date. -/
def scalar (n : Node) : Build Value := do
  match n with
  | .scalar tag text plain => scalarValue (← get).digits tag text plain
  | _ =>
    let nodes := (← get).nodes
    match n.tag, text? nodes (nodes.size + 1) n with
    | some tag, some cs =>
      if tag = Node.standardStart ++ "timestamp" then throw (.unworded .type)
      else taggedValue (← get).digits tag cs
    | _, _ => throw malformed

/-- Looks at a node, if it is met for the first time. -/
def visit (number : Nat) : Build Unit := do
  if ((← get).contents.getD number none).isNone then
    let n ← node number
    match n.kind? with
    | some .scalar => settle number (.value (← scalar n))
    | some _ =>
      settle number (.value (.other "list"))
      modify fun b => { b with waiting := number :: b.waiting }
    | none => throw malformed

/-- Looks at a key and its value. A key has to be a scalar. -/
def visitEntry (entry : Nat × Nat) : Build Unit := do
  visit entry.1
  if (← node entry.1).kind? ≠ some .scalar then throw malformed
  visit entry.2

/-- Looks at the key and the value of a mapping with one entry. -/
def visitPair (number : Nat) : Build Unit := do
  match ← node number with
  | .mapping _ [(k, v)] =>
    visit k
    visit v
  | _ => throw malformed

/-- Looks at the keys and values of a mapping. -/
def visitEntries (number : Nat) : Build (List (Nat × Nat)) := do
  merge number
  let es := (← node number).entries
  es.forM visitEntry
  return es

/-- Looks into a sequence or a mapping, which has to be of its kind. -/
def enter (number : Nat) : Build Unit := do
  let n ← node number
  match n.kind?, n with
  | some .sequence, .sequence _ items =>
    items.forM visit
    settle number (.list items)
  | some .pairs, .sequence _ items => items.forM visitPair
  | some .mapping, .mapping .. => settle number (.entries (← visitEntries number))
  | some .set, .mapping .. =>
    let _ ← visitEntries number
    settle number (.value (.other "set"))
  | _, _ => throw malformed

/-- Looks into what waits, level by level. -/
def levels : Nat → Build Unit
  | 0 => return
  | fuel + 1 => do
    let b ← get
    set { b with waiting := [] }
    b.waiting.reverse.forM enter
    levels fuel

end Build

/-! ### Values -/

/-- Collecting the values of nodes, each of them once. -/
abbrev Collect (α : Type) : Type := StateM (Array (Option Value)) α

/-- The value of a node. Where a node stands inside itself, it is just a list. -/
def collectValue (contents : Array (Option Content)) : Nat → Nat → Collect Value
  | 0, _ => return .other "list"
  | fuel + 1, number => do
    match (← get).getD number none with
    | some v => return v
    | none =>
      modify fun values => values.setIfInBounds number (some (.other "list"))
      let v ← match contents.getD number none with
        | some (.value v) => pure v
        | some (.list items) => do
          pure (.list (← items.mapM fun item => collectValue contents fuel item))
        | some (.entries es) => do
          let pairs ← es.mapM fun (k, v) =>
            return (← collectValue contents fuel k, ← collectValue contents fuel v)
          pure (.mapping (Value.entriesOf pairs))
        | none => pure .null
      modify fun values => values.setIfInBounds number (some v)
      return v

/-- The value of a document. No node is deeper in it than there are nodes. -/
def Graph.toValue (limit : DigitLimit) (g : Graph) : Except Failure Value := do
  let size := g.nodes.size
  let build : Build Unit := do
    Build.visit g.root
    Build.levels size
  let ((), b) ← build.run ⟨g.nodes, Array.replicate size none, [], limit⟩
  return ((collectValue b.contents (size + 1) g.root).run (Array.replicate size none)).1

/-! ### Texts -/

/-- The length of the pieces in which a text is looked through. -/
def pieceLength : Nat := 4096

/-- The part of a text in front of the piece with the first character that must not stand in a text,
if there is one. The first two pieces are one. -/
def readablePart? (cs : List Char) : Option (List Char) :=
  (cs.findIdx? fun c => !isPrintable c).map fun i =>
    let pieces := i / pieceLength
    if pieces < 2 then [] else cs.take (pieces * pieceLength)

/-- The value of the only document of a text; a text without one stands for nothing. A text that
cannot be read to its end is refused, if no failure comes first in the part of it that can. -/
def read (limit : DigitLimit) (cs : List Char) : Except Failure Value := do
  match readablePart? cs with
  | some part =>
    let _ ← Graph.ofTokens? (tokens part)
    throw malformed
  | none =>
    match ← Graph.ofTokens? (tokens cs) with
    | some g => g.toValue limit
    | none => return .null

end Yaml

end ExactNumerics
