import ExactNumerics.Value.Equality

/-!
# Mappings

The entries of a mapping are kept in the order in which their keys first appeared; a later entry
with an equal key replaces the value only.

## Main definitions

* `Value.putEntry`: the entries after one more.
* `Value.entry?`: the value of a text key.
-/

namespace ExactNumerics

namespace Value

/-- The entries after one more, which takes the place of an entry with an equal key. -/
def putEntry (key v : Value) : List (Value × Value) → List (Value × Value)
  | [] => [(key, v)]
  | (k, w) :: entries =>
    if k.equals key then (k, v) :: entries else (k, w) :: putEntry key v entries

/-- The entries of a list of keys and values in which later ones count. -/
def entriesOf (pairs : List (Value × Value)) : List (Value × Value) :=
  pairs.foldl (fun entries (key, v) => putEntry key v entries) []

/-- The value of a text key. -/
def entry? (name : String) : List (Value × Value) → Option Value
  | [] => none
  | (text k, v) :: entries => if k = name then some v else entry? name entries
  | _ :: entries => entry? name entries

end Value

end ExactNumerics
