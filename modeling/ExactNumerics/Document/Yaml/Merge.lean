import ExactNumerics.Document.Yaml.Schema

/-!
# Merge keys

The key `<<` of a mapping asks for the entries of other mappings: those of the mapping that is its
value, or of the mappings of the sequence that is its value. They are put in front of the entries
of the mapping itself, so that the latter count most, and of the mappings of a sequence the first
ones count most. A mapping may ask for the entries of a mapping around it, so nothing is copied:
the nodes of the document change, and each merge key is used once.

The key `=` gives a mapping the value of a scalar where a tag wants one. Anywhere else it is a text.

## Main definitions

* `Yaml.Node.isMergeKey`, `Yaml.Node.isDefaultKey`: the two keys.
* `Yaml.merge`: the nodes after the merge keys of a mapping were used.
-/

namespace ExactNumerics

namespace Yaml

namespace Node

/-- The tag of a node. -/
def tag : Node → Option String
  | scalar tag _ _ | sequence tag _ | mapping tag _ => tag

/-- The entries of a mapping; no other node has any. -/
def entries : Node → List (Nat × Nat)
  | mapping _ es => es
  | _ => []

/-- Whether a node is written as the given characters and no more than a line feed, and has no
tag. -/
def isPlain (cs : List Char) : Node → Bool
  | scalar none text plain => plain && withoutLastBreak text = cs
  | _ => false

/-- Whether a node is the key that puts other entries in front. -/
def isMergeKey (n : Node) : Bool := n.isPlain ['<', '<'] || n.tag = some (standardStart ++ "merge")

/-- Whether a node is the key of the value that a mapping has as a scalar. -/
def isDefaultKey (n : Node) : Bool := n.isPlain ['='] || n.tag = some (standardStart ++ "value")

/-- A node as a text, if it is a scalar. -/
def asText : Node → Node
  | scalar _ text plain => scalar (some (standardStart ++ "str")) text plain
  | sequence _ items => sequence (some (standardStart ++ "str")) items
  | mapping _ es => mapping (some (standardStart ++ "str")) es

end Node

/-- Changing the nodes of a document. -/
abbrev Edit (α : Type) : Type := StateT (Array Node) (Except Failure) α

/-- The node with a number. -/
def nodeAt (number : Nat) : Edit Node := return (← get).getD number Node.blank

/-- Gives a mapping other entries. -/
def setEntries (number : Nat) (es : List (Nat × Nat)) : Edit Unit :=
  modify fun nodes => nodes.modify number fun n => .mapping n.tag es

/-- Makes the default keys of some entries texts. -/
def settleDefaultKeys (es : List (Nat × Nat)) : Edit Unit :=
  modify fun nodes => es.foldl (fun nodes (k, _) =>
    nodes.modify k fun n => if n.isDefaultKey then n.asText else n) nodes

mutual

/-- Uses the merge keys of a mapping. -/
def mergeInto (number : Nat) : Nat → Edit Unit
  | 0 => throw malformed
  | fuel + 1 => do
    let front ← takeMerged number fuel
    let es := front ++ (← nodeAt number).entries
    setEntries number es
    settleDefaultKeys es

/-- Takes the merge keys out of a mapping; the entries that they ask for. -/
def takeMerged (number : Nat) : Nat → Edit (List (Nat × Nat))
  | 0 => throw malformed
  | fuel + 1 => do
    let nodes ← get
    let es := (← nodeAt number).entries
    match es.findIdx? fun (k, _) => (nodes.getD k Node.blank).isMergeKey with
    | none => return []
    | some i =>
      setEntries number (es.eraseIdx i)
      let front ← entriesToMerge ((es.map (·.2)).getD i 0) fuel
      return front ++ (← takeMerged number fuel)

/-- The entries that the value of a merge key asks for. -/
def entriesToMerge (number : Nat) : Nat → Edit (List (Nat × Nat))
  | 0 => throw malformed
  | fuel + 1 => do
    match ← nodeAt number with
    | .mapping .. => mergedEntries number fuel
    | .sequence _ items =>
      let parts ← items.mapM fun item => mergedEntries item fuel
      return parts.reverse.flatten
    | .scalar .. => throw malformed

/-- The entries of a mapping after its own merge keys were used. -/
def mergedEntries (number : Nat) : Nat → Edit (List (Nat × Nat))
  | 0 => throw malformed
  | fuel + 1 => do
    match ← nodeAt number with
    | .mapping .. =>
      mergeInto number fuel
      return (← nodeAt number).entries
    | _ => throw malformed

end

/-- Uses the merge keys of a mapping. Each of them is taken out before others are looked for, so
four steps for each entry of the document are enough. -/
def merge (number : Nat) : Edit Unit := do
  let count := (← get).foldl (fun count n => count + n.entries.length) 0
  mergeInto number (4 * count + 4)

end Yaml

end ExactNumerics
