import ExactNumerics.Prime.Search
import ExactNumerics.Settings.Environment

/-!
# What stays from call to call

Vectors apart, calls share the environment variables, the limit on the digits of integers in texts,
the active settings, the default prime table, and the prime tables and sources of draws that were
made. Settings and default table are made when they are first needed: the settings from the
environment as it is at that moment, the table with the limit that the settings ask for. Both then
stay until they are replaced.

## Main definitions

* `Desk`: what calls share.
* `Errand`: a computation on it.
* `Errand.settings`, `Errand.defaultTable`: what is made on demand.
* `Desk.search`: a search on the desk, with everything it consults made on demand.
-/

namespace ExactNumerics

/-- A prime table that was made, and whether its entries were read. -/
structure TableState where
  /-- The table. -/
  table : PrimeTable
  /-- Its entries were read. -/
  built : Bool := false

/-- What calls share, vectors apart. -/
structure Desk where
  /-- The environment variables. -/
  environment : Environment := []
  /-- The active settings, if they were made. -/
  active : Option Settings := none
  /-- The cell of the default prime table, if there is one. -/
  defaultTable : Option Nat := none
  /-- The prime tables. -/
  tables : Array TableState := #[]
  /-- The sources of draws. -/
  sources : Array Draws := #[]
  /-- The limit on the digits of integers in texts. -/
  digits : DigitLimit := none

/-- A computation on what calls share. -/
abbrev Errand (α : Type) : Type := ExceptT Failure (StateM Desk) α

namespace Desk

/-- The settings that are active or would become active. -/
def currentSettings (d : Desk) : Except Failure Settings :=
  match d.active with
  | some s => .ok s
  | none => Settings.ofEnvironment d.digits d.environment.get?

/-- The table in a cell. -/
def tableAt (d : Desk) (cell : Nat) : Option PrimeTable := (d.tables[cell]?).map (·.table)

/-- Whether the entries of the table in a cell were read. -/
def isBuilt (d : Desk) (cell : Nat) : Bool := ((d.tables[cell]?).map (·.built)).getD false

/-- The desk after the entries of a table were read. -/
def markBuilt (d : Desk) (cell : Nat) : Desk :=
  { d with tables := d.tables.modify cell fun t => { t with built := true } }

/-- The desk with one more table, which is in the last cell. -/
def addTable (d : Desk) (t : PrimeTable) : Desk := { d with tables := d.tables.push ⟨t, false⟩ }

/-- The position of the source in a cell. -/
def drawsTaken (d : Desk) (cell : Nat) : Nat := ((d.sources[cell]?).map (·.taken)).getD 0

end Desk

namespace Errand

/-- The active settings, made from the environment if there are none. -/
def settings : Errand Settings := do
  let s ← (← get).currentSettings
  modify fun d => { d with active := some s }
  return s

/-- The cell of a new table. -/
def addTable (t : PrimeTable) : Errand Nat := do
  let cell := (← get).tables.size
  modify fun d => d.addTable t
  return cell

/-- The cell of the default table, which is made with the limit of the active settings if there is
none. -/
def defaultTable : Errand Nat := do
  match (← get).defaultTable with
  | some cell => return cell
  | none =>
    let s ← settings
    let cell ← addTable (PrimeTable.ofLimit s.smallPrimeLimit s.two_le_smallPrimeLimit)
    modify fun d => { d with defaultTable := some cell }
    return cell

/-- The table in a cell, whose entries are read. -/
def readTable (cell : Nat) : Errand PrimeTable := do
  match (← get).tableAt cell with
  | some t =>
    modify fun d => d.markBuilt cell
    return t
  | none => throw (.unworded .lookup)

end Errand

namespace Desk

/-- Does an errand that cannot be refused for its own sake. -/
def doing (d : Desk) (e : Errand Nat) : Option Nat × Desk :=
  let (r, d) := e d
  (r.toOption, d)

/-- The desk after a search with the given footprint, which used the table in the given cell, or
else the default table. -/
def afterSearch (d : Desk) (cell : Option Nat) (footprint : Footprint) : Desk :=
  let d := if footprint.settings then (Errand.settings.run d).2 else d
  if footprint.table then
    let (used, d) := match cell with
      | some c => (some c, d)
      | none => d.doing Errand.defaultTable
    match used with
    | some c => if footprint.entries then d.markBuilt c else d
    | none => d
  else d

/-- Runs a search with the table in the given cell, or else with the default table. -/
def search {α : Type} (d : Desk) (cell : Option Nat) (draws : Draws) (s : Search α) :
    Except Failure α × Draws × Desk :=
  match d.currentSettings with
  | .error f => (.error f, draws, d)
  | .ok settings =>
    let table := ((cell.or d.defaultTable).bind d.tableAt).getD
      (PrimeTable.ofLimit settings.smallPrimeLimit settings.two_le_smallPrimeLimit)
    let (outcome, progress) := s.run ⟨settings, table, d.digits⟩ ⟨draws, {}⟩
    (outcome, progress.draws, d.afterSearch cell progress.footprint)

end Desk

end ExactNumerics
