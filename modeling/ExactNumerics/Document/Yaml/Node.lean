import ExactNumerics.Document.Yaml.Lexer

/-!
# Nodes

The tokens of a text make one document, and a document is a graph of nodes: a node is a scalar, a
sequence or a mapping, and it knows its parts by their numbers. A node may have a tag and a name; a
name is used once, and an alias stands for the very node that has it, which may be one of the nodes
around the alias.

## Main definitions

* `Yaml.Node`: the nodes.
* `Yaml.Graph`: the nodes of a document.
* `Yaml.Graph.ofTokens?`: the document that tokens make, if there is one.
-/

namespace ExactNumerics

namespace Yaml

/-- The nodes of a document. -/
inductive Node where
  /-- A scalar with its tag, and whether it may stand for something else than its text. -/
  | scalar (tag : Option String) (text : List Char) (plain : Bool)
  /-- A sequence with its tag and the numbers of its items. -/
  | sequence (tag : Option String) (items : List Nat)
  /-- A mapping with its tag and the numbers of its keys and values. -/
  | mapping (tag : Option String) (entries : List (Nat × Nat))

/-- A document: its nodes, and the number of the one that holds all others. -/
structure Graph where
  /-- The nodes by their numbers. -/
  nodes : Array Node
  /-- The number of the outermost node. -/
  root : Nat

namespace Node

/-- A node of which nothing is written. -/
def blank : Node := .scalar none [] true

/-- What is known while nodes are read. -/
structure Reader where
  /-- The tokens that are left. -/
  tokens : List Token
  /-- The failure that comes after them, if any. -/
  failure? : Option Failure
  /-- What the handles stand for. -/
  handles : List (String × String)
  /-- The nodes so far; one that is still being read is blank. -/
  nodes : Array Node := #[]
  /-- The numbers of the named nodes. -/
  named : List (String × Nat) := []

/-- Reading nodes. -/
abbrev Read (α : Type) : Type := StateT Reader (Except Failure) α

/-- The next token; none at the end of the text. -/
def peek : Read (Option Token) := do
  match ← get with
  | ⟨t :: _, _, _, _, _⟩ => return some t
  | ⟨[], none, _, _, _⟩ => return none
  | ⟨[], some failure, _, _, _⟩ => throw failure

/-- Whether the next token is one of these. -/
def nextIn (ts : List Token) : Read Bool := return (← peek).any ts.contains

/-- Moves over the next token. -/
def skip : Read Unit := modify fun r => { r with tokens := r.tokens.drop 1 }

/-- Moves over the given token, which has to be the next one. -/
def expect (t : Token) : Read Unit := do
  if (← peek) = some t then skip else throw malformed

/-! ### Names and tags -/

/-- The start of the tags of the standard kinds. -/
def standardStart : String := "tag:yaml.org,2002:"

/-- A tag in full. -/
def fullTag (handle : Option String) (suffix : String) : Read String := do
  match handle with
  | none => return suffix
  | some h =>
    match (← get).handles.lookup h with
    | some start => return start ++ suffix
    | none => throw malformed

/-- A name in front of a node, if there is one. -/
def name? : Read (Option String) := do
  match ← peek with
  | some (.anchor name) => skip; return some name
  | _ => return none

/-- A tag in front of a node as it is written, if there is one. -/
def tag? : Read (Option (Option String × String)) := do
  match ← peek with
  | some (.tag handle suffix) => skip; return some (handle, suffix)
  | _ => return none

/-- A name and a tag in front of a node, in either order. The handle of the tag counts after
both. -/
def properties : Read (Option String × Option String) := do
  let name ← name?
  let tag ← tag?
  let name ← if name.isNone && tag.isSome then name? else pure name
  match tag with
  | some (handle, suffix) => return (name, some (← fullTag handle suffix))
  | none => return (name, none)

/-- Adds a node; its number. -/
def add (n : Node) : Read Nat := do
  let r ← get
  set { r with nodes := r.nodes.push n }
  return r.nodes.size

/-- A node of which nothing is written; its number. -/
def empty : Read Nat := add blank

/-- Starts a node, possibly with a name, which must not be in use; its number. -/
def start (name : Option String) : Read Nat := do
  let number ← empty
  if let some name := name then
    if ((← get).named.lookup name).isSome then throw malformed
    modify fun r => { r with named := (name, number) :: r.named }
  return number

/-- Says what a node that was started is. -/
def finish (number : Nat) (n : Node) : Read Unit :=
  modify fun r => { r with nodes := r.nodes.setIfInBounds number n }

/-- The number of the node that an alias stands for. -/
def aliased (name : String) : Read Nat := do
  match (← get).named.lookup name with
  | some number => return number
  | none => throw malformed

/-- The tag `!` leaves the kind open. -/
def effectiveTag (tag : Option String) : Option String := if tag = some "!" then none else tag

/-! ### Nodes -/

mutual

/-- A node; its number. Some nodes are possible only outside brackets, and a sequence may be
indented as little as the key in front of it only there. -/
def node (block indentless : Bool) : Nat → Read Nat
  | 0 => throw malformed
  | fuel + 1 => do
    match ← peek with
    | some (.alias name) =>
      skip
      aliased name
    | _ =>
      let (name, tag) ← properties
      let first ← peek
      let number ← start name
      let kind := effectiveTag tag
      let n ← match first with
        | some (.scalar text plain) => do
          skip
          pure (Node.scalar kind text ((plain && tag.isNone) || tag = some "!"))
        | some .flowSequenceStart => do
          skip
          pure (Node.sequence kind (← flowItems true fuel))
        | some .flowMappingStart => do
          skip
          pure (Node.mapping kind (← flowEntries true fuel))
        | t =>
          if t = some .blockEntry && indentless then do
            pure (Node.sequence kind (← indentlessItems fuel))
          else if t = some .blockSequenceStart && block then do
            skip
            pure (Node.sequence kind (← blockItems fuel))
          else if t = some .blockMappingStart && block then do
            skip
            pure (Node.mapping kind (← blockEntries fuel))
          else if name.isSome || tag.isSome then pure (Node.scalar kind [] kind.isNone)
          else throw malformed
      finish number n
      return number

/-- A node, or nothing in front of one of the given tokens. -/
def nodeUnless (stops : List Token) (block indentless : Bool) : Nat → Read Nat
  | 0 => throw malformed
  | fuel + 1 => do
    if ← nextIn stops then empty else node block indentless fuel

/-- The items of a sequence up to the end of its indentation. -/
def blockItems : Nat → Read (List Nat)
  | 0 => throw malformed
  | fuel + 1 => do
    if ← nextIn [.blockEntry] then
      skip
      let n ← nodeUnless [.blockEntry, .blockEnd] true false fuel
      return n :: (← blockItems fuel)
    else
      expect .blockEnd
      return []

/-- The items of a sequence that is not indented more than the key in front of it. -/
def indentlessItems : Nat → Read (List Nat)
  | 0 => throw malformed
  | fuel + 1 => do
    if ← nextIn [.blockEntry] then
      skip
      let n ← nodeUnless [.blockEntry, .key, .value, .blockEnd] true false fuel
      return n :: (← indentlessItems fuel)
    else return []

/-- The entries of a mapping up to the end of its indentation. -/
def blockEntries : Nat → Read (List (Nat × Nat))
  | 0 => throw malformed
  | fuel + 1 => do
    if ← nextIn [.key] then
      skip
      let k ← nodeUnless [.key, .value, .blockEnd] true true fuel
      let v ← if ← nextIn [.value] then do
          skip
          nodeUnless [.key, .value, .blockEnd] true true fuel
        else empty
      return (k, v) :: (← blockEntries fuel)
    else
      expect .blockEnd
      return []

/-- A value between brackets or braces, or nothing. -/
def flowValue (close : Token) : Nat → Read Nat
  | 0 => throw malformed
  | fuel + 1 => do
    if ← nextIn [.value] then
      skip
      nodeUnless [.flowEntry, close] false false fuel
    else empty

/-- The items between brackets. A key makes a mapping of one entry. -/
def flowItems (first : Bool) : Nat → Read (List Nat)
  | 0 => throw malformed
  | fuel + 1 => do
    if ← nextIn [.flowSequenceEnd] then
      skip
      return []
    unless first do expect .flowEntry
    if ← nextIn [.key] then
      skip
      let pair ← empty
      let k ← nodeUnless [.value, .flowEntry, .flowSequenceEnd] false false fuel
      let v ← flowValue .flowSequenceEnd fuel
      finish pair (.mapping none [(k, v)])
      return pair :: (← flowItems false fuel)
    else if ← nextIn [.flowSequenceEnd] then
      skip
      return []
    else
      let n ← node false false fuel
      return n :: (← flowItems false fuel)

/-- The entries between braces. A node without a colon is a key without a value. -/
def flowEntries (first : Bool) : Nat → Read (List (Nat × Nat))
  | 0 => throw malformed
  | fuel + 1 => do
    if ← nextIn [.flowMappingEnd] then
      skip
      return []
    unless first do expect .flowEntry
    if ← nextIn [.key] then
      skip
      let k ← nodeUnless [.value, .flowEntry, .flowMappingEnd] false false fuel
      let v ← flowValue .flowMappingEnd fuel
      return (k, v) :: (← flowEntries false fuel)
    else if ← nextIn [.flowMappingEnd] then
      skip
      return []
    else
      let n ← node false false fuel
      let v ← empty
      return (n, v) :: (← flowEntries false fuel)

end

/-! ### Documents -/

/-- The directives in front of a document: whether a version was named, and the handles. -/
def directives : List Token → Bool → List (String × String) →
    Except Failure (List Token × List (String × String))
  | .version major :: ts, versioned, handles =>
    if versioned || major ≠ 1 then throw malformed else directives ts true handles
  | .handle name start :: ts, versioned, handles =>
    if (handles.lookup name).isSome then throw malformed
    else directives ts versioned ((name, start) :: handles)
  | .reserved :: ts, versioned, handles => directives ts versioned handles
  | ts, _, handles => return (ts, handles)

/-- Whether a token is a directive. -/
def isDirective : Token → Bool
  | .version _ | .handle .. | .reserved => true
  | _ => false

/-- The handles that need no directive. -/
def standardHandles : List (String × String) := [("!", "!"), ("!!", standardStart)]

/-- The number of the node of a document that starts with or without a mark. -/
def documentNode (fuel : Nat) (marked : Bool) : Read Nat := do
  match ← peek with
  | none => empty
  | some t =>
    if marked && (isDirective t || t = .documentStart || t = .documentEnd) then empty
    else node true false fuel

/-- Demands that nothing but marks of its end comes after a document. What another document starts
with is still read. -/
def documentEnd : Read Unit := do
  modify fun r => { r with tokens := r.tokens.dropWhile (· = .documentEnd) }
  if (← peek).isSome then
    let (rest, _) ← directives (← get).tokens false []
    modify fun r => { r with tokens := rest }
    let _ ← peek
    throw malformed

/-- The number of the node of the only document of a text, if there is a document. -/
def document? (fuel : Nat) : Read (Option Nat) := do
  match ← peek with
  | none => return none
  | some t =>
    let marked := isDirective t || t = .documentStart
    if marked then
      let (rest, handles) ← directives (← get).tokens false []
      modify fun r => { r with tokens := rest, handles := handles ++ standardHandles }
      expect .documentStart
    let number ← documentNode fuel marked
    documentEnd
    return some number

end Node

/-- The only document that tokens make; none if there are no tokens. A failure after them counts
only if they have to be read up to it. -/
def Graph.ofTokens? (ts : Tokens) : Except Failure (Option Graph) := do
  let reader : Node.Reader := ⟨ts.settled, ts.failure?, Node.standardHandles, #[], []⟩
  let (root?, reader) ← (Node.document? (3 * ts.settled.length + 3)).run reader
  return root?.map fun root => ⟨reader.nodes, root⟩

end Yaml

end ExactNumerics
