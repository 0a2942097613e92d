import ExactNumerics.Catalogue
import ExactNumerics.Session.Request

/-!
# Sessions

A session is a run of requests that share what is on the desk, the vectors, and the names under
which answers were stored. A vector is stored in a cell of its own. An operation that hands a stored
vector back makes no new one, so several names can mean one cell, and a change is seen under all of
them.

A request does its work in this order: its settings are made active, its terms are looked up, its
table is made, its draws are found, and then the operation runs. The first of these that fails is
the answer, and what was done before it stays. A failure is reported as far as its wording can be
made within the limit on the digits.

## Main definitions

* `Session`: what requests share.
* `Session.perform`: runs an operation.
* `Session.step`: answers a request.
-/

namespace ExactNumerics

/-- What is stored under a name. -/
inductive Holding where
  /-- An answer. -/
  | answer (a : Answer)
  /-- The vector in a cell. -/
  | vector (cell : Nat)

/-- What is stored, after the vector in a cell was overwritten. -/
def Holding.renewed (cell : Nat) (contents : FlonumVector) : Holding → Holding
  | .answer a => .answer (a.map (·.renewed cell contents))
  | h => h

/-- What requests share. -/
structure Session where
  /-- Everything but vectors and names. -/
  desk : Desk := {}
  /-- The stored vectors. -/
  vectors : Array FlonumVector := #[]
  /-- The names, with what is stored under them. -/
  names : List (String × Holding) := []

namespace Session

/-! ### Names and cells -/

/-- The value that is stored under a name. -/
def valueOf (s : Session) : Holding → Value
  | .answer a => a.toValue
  | .vector cell => .vector (s.vectors.getD cell #[]) (some cell)

mutual

/-- The value of a term. A vector that is written out is in no cell. -/
def resolve (s : Session) : Term → Except Failure Value
  | .value v => .ok v.unstored
  | .stored name =>
    match s.names.lookup name with
    | some h => .ok (s.valueOf h)
    | none => .error (.unworded .lookup)
  | .list ts => do return .list (← resolveAll s ts)

/-- The values of some terms. -/
def resolveAll (s : Session) : List Term → Except Failure (List Value)
  | [] => .ok []
  | t :: ts => do
    let v ← resolve s t
    return v :: (← resolveAll s ts)

end

/-- The values of some named terms. -/
def resolveNamed (s : Session) (ts : List (String × Term)) :
    Except Failure (List (String × Value)) :=
  ts.mapM fun (name, t) => do return (name, ← s.resolve t)

/-- The session with an answer stored under a name. A vector that is in no cell gets a new one. -/
def put (s : Session) (name : String) (a : Answer) : Session :=
  let others := s.names.filter (·.1 ≠ name)
  let a := a.map (·.known s.vectors.size)
  match a.toValue with
  | .vector _ (some cell) => { s with names := (name, .vector cell) :: others }
  | .vector v none =>
    { s with
      vectors := s.vectors.push v
      names := (name, .vector s.vectors.size) :: others }
  | _ => { s with names := (name, .answer a) :: others }

/-- The session after the vector in a cell was overwritten, which shows in everything that holds
it. -/
def overwriteCell (s : Session) (cell : Nat) (contents : FlonumVector) : Session :=
  { s with
    vectors := s.vectors.setIfInBounds cell contents
    names := s.names.map fun (name, h) => (name, h.renewed cell contents) }

/-- The session after a vector was overwritten, which shows if it is stored. -/
def overwrite (s : Session) (w : Overwrite) : Session :=
  match w.cell with
  | some cell => s.overwriteCell cell w.contents
  | none => s

/-! ### Running an operation -/

/-- Where a request draws from. -/
structure DrawPlan where
  /-- The source, in its present position. -/
  draws : Draws
  /-- The cell of the source, if it is stored. -/
  cell : Option Nat := none
  /-- The source was given. -/
  given : Bool := true

/-- The draws of a request. -/
def drawPlan (s : Session) : DrawSource → Except Failure DrawPlan
  | .any => .ok ⟨.scattered, none, false⟩
  | .script numbers => .ok ⟨.ofScript numbers, none, true⟩
  | .stored name => do
    match ← s.resolve (.stored name) with
    | .source cell =>
      match s.desk.sources[cell]? with
      | some draws => return ⟨draws, some cell, true⟩
      | none => throw (.unworded .lookup)
    | _ => throw (.unworded .type)

/-- What an operation came to: its outcome, the draws afterwards, and the session afterwards. -/
structure Outcome where
  /-- The answer, or why there is none. -/
  outcome : Except Failure Answer
  /-- The source of draws afterwards. -/
  draws : Draws
  /-- The session afterwards. -/
  session : Session

/-- Runs an operation with the given table and draws, which only searches can use. -/
def perform (s : Session) (op : Operation) (call : Call) (table : Option Nat) (plan : DrawPlan) :
    Outcome :=
  let idle := table.isNone && !plan.given
  let refused : Outcome := ⟨.error (.unworded .type), plan.draws, s⟩
  match op with
  | .calculate f => if idle then ⟨f call, plan.draws, s⟩ else refused
  | .search access f =>
    if (table.isSome && !access.table) || (plan.given && !access.draws) then refused
    else
      let (outcome, draws, desk) := s.desk.search table plan.draws (f call)
      ⟨outcome, draws, { s with desk }⟩
  | .overwrite f =>
    if idle then
      match f call with
      | .ok w => ⟨.ok (.exact .null), plan.draws, s.overwrite w⟩
      | .error e => ⟨.error e, plan.draws, s⟩
    else refused
  | .administer f =>
    if idle then
      let (outcome, desk) := f call s.desk
      ⟨outcome.map .exact, plan.draws, { s with desk }⟩
    else refused

/-! ### Answering a request -/

/-- Makes the settings of a request active. -/
def installSettings (s : Session) : Option (List (String × Term)) → Except Failure Session
  | none => .ok s
  | some fields => do
    let values ← s.resolveNamed fields
    let settings ← Settings.ofFields fun field => values.lookup field.name
    return { s with desk := { s.desk with active := some settings } }

/-- The cell of the table of a request, unless it is the default one. -/
def chooseTable (s : Session) : TableChoice → Except Failure (Option Nat × Session)
  | .standard => .ok (none, s)
  | .limit v => do
    let limit ← v.checkNatural "SieveOracle" "limit"
    let t ← PrimeTable.ofLimit? limit
    return (some s.desk.tables.size, { s with desk := s.desk.addTable t })
  | .stored name => do
    match ← s.resolve (.stored name) with
    | .table cell _ => return (some cell, s)
    | _ => throw (.unworded .type)

/-- What an operation is run with. -/
structure Prepared where
  /-- The session so far. -/
  session : Session
  /-- The operation. -/
  operation : Operation
  /-- The values handed over. -/
  call : Call
  /-- The cell of the table. -/
  table : Option Nat
  /-- The draws. -/
  plan : DrawPlan

/-- Everything that a request does before its operation runs, with its settings installed. -/
def prepare (s : Session) (r : Request) : Except Failure Prepared := do
  let call : Call := ⟨← s.resolveAll r.positional, ← s.resolveNamed r.named, s.desk.digits⟩
  let (table, s) ← s.chooseTable r.table
  let plan ← s.drawPlan r.draws
  match Catalogue.find? r.operation with
  | some operation => return ⟨s, operation, call, table, plan⟩
  | none => throw (.unworded .lookup)

/-- The number of draws to report. -/
def drawnOf (r : Request) (taken : Nat) : Option Nat :=
  match r.draws with
  | .script _ => some taken
  | _ => none

/-- The session after the operation of a request: a stored source has moved on, and an answer is
stored if a name was given. -/
def settle (o : Outcome) (cell : Option Nat) (store : Option String) : Session :=
  let s := o.session
  let s := match cell with
    | some c => { s with desk := { s.desk with sources := s.desk.sources.setIfInBounds c o.draws } }
    | none => s
  match o.outcome, store with
  | .ok a, some name => s.put name a
  | _, _ => s

/-- The report on an outcome, after a number of draws. -/
def reportOf (s : Session) (r : Request) (outcome : Except Failure Answer) (taken : Nat) : Report :=
  ⟨Failure.reporting s.desk.digits outcome, drawnOf r taken⟩

/-- Answers a request. -/
def step (s : Session) (r : Request) : Report × Session :=
  match s.installSettings r.settings with
  | .error f => (s.reportOf r (.error f) 0, s)
  | .ok t =>
    match t.prepare r with
    | .error f => (s.reportOf r (.error f) 0, t)
    | .ok p =>
      let o := p.session.perform p.operation p.call p.table p.plan
      (s.reportOf r o.outcome o.draws.taken, settle o p.plan.cell r.store)

/-- Answers requests one after another, with the session after each of them. -/
def run (s : Session) : List Request → List (Report × Session)
  | [] => []
  | r :: rs =>
    let (report, s) := s.step r
    (report, s) :: run s rs

end Session

end ExactNumerics
