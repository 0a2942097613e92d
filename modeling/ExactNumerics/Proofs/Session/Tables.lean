import ExactNumerics.Proofs.Catalogue
import ExactNumerics.Proofs.Session.Call
import ExactNumerics.Proofs.Settings.Environment
import Mathlib.Data.Nat.Notation

/-!
# What becomes of the prime tables

Tables are made and read, and nothing else happens to them: a table stays in its cell, and once its
entries were read they stay read. The default table is the one in some cell. It is made on demand by
the errand that asks for it and by searches that were given no table, with the limit of the settings
that are active at that moment, and only one operation replaces it.

## Main definitions

* `Desk.KeepsTables` — what happens to tables when only some of them are read
* `Desk.Keeps` — the same, and the default table stays what it is
* `Desk.KeepsDefault` — the same, and the default table may be made if there is none
* `Errand.Keeps` — an errand that leaves the default table what it is

## Main results

* `Errand.defaultTable_run` — how the default table is made
* `Desk.keepsDefault_afterSearch` — searches
* `Catalogue.keeps_administration` — errands
-/

namespace ExactNumerics

/-- The table with the limit that settings ask for. -/
def Settings.standardTable (s : Settings) : PrimeTable :=
  PrimeTable.ofLimit s.smallPrimeLimit s.two_le_smallPrimeLimit

@[simp]
theorem Settings.limit_standardTable (s : Settings) : s.standardTable.limit = s.smallPrimeLimit :=
  PrimeTable.limit_ofLimit _ _

namespace Desk

variable {reads : ℕ → Prop} {d d' d'' : Desk} {c : ℕ}

/-- The desk after settings were made active and the default table was made for them. -/
def withDefaultTable (d : Desk) (s : Settings) : Desk :=
  { ({ d with active := some s } : Desk).addTable s.standardTable with
    defaultTable := some d.tables.size }

/-! ### Settings -/

/-- There are always settings that are active or would become active. -/
theorem exists_currentSettings (d : Desk) : ∃ s, d.currentSettings = .ok s := by
  rw [currentSettings]
  split
  · exact ⟨_, rfl⟩
  · exact Settings.exists_ofEnvironment _ _

/-! ### Cells -/

theorem tableAt_addTable (d : Desk) (t : PrimeTable) (c : ℕ) :
    (d.addTable t).tableAt c = if c = d.tables.size then some t else d.tableAt c := by
  rw [tableAt, addTable, Array.getElem?_push]
  split <;> rfl

theorem isBuilt_addTable (d : Desk) (t : PrimeTable) (c : ℕ) :
    (d.addTable t).isBuilt c = d.isBuilt c := by
  rw [isBuilt, isBuilt, addTable, Array.getElem?_push]
  split
  · rename_i hc
    rw [hc, Array.getElem?_eq_none (Nat.le_refl _)]
    rfl
  · rfl

theorem tableAt_markBuilt (d : Desk) (c i : ℕ) : (d.markBuilt c).tableAt i = d.tableAt i := by
  rw [tableAt, tableAt, markBuilt, Array.getElem?_modify]
  split
  · cases d.tables[i]? <;> rfl
  · rfl

theorem isBuilt_markBuilt_of_ne (d : Desk) {i : ℕ} (h : i ≠ c) :
    (d.markBuilt c).isBuilt i = d.isBuilt i := by
  rw [isBuilt, isBuilt, markBuilt, Array.getElem?_modify, if_neg h.symm]

theorem isBuilt_markBuilt_self (h : d.isBuilt c = true) : (d.markBuilt c).isBuilt c = true := by
  rw [isBuilt, markBuilt, Array.getElem?_modify, if_pos rfl]
  rw [isBuilt] at h
  cases hc : d.tables[c]? with
  | none => exact absurd h (by simp [hc])
  | some x => rfl

/-- A table that is there is not in a cell that is yet to be made. -/
theorem ne_size_of_tableAt {t : PrimeTable} (h : d.tableAt c = some t) : c ≠ d.tables.size := by
  rintro rfl
  rw [tableAt, Array.getElem?_eq_none (Nat.le_refl _)] at h
  exact absurd h (by simp)

/-! ### Tables that stay -/

/-- What happens to the tables when only the ones in some cells are read. -/
structure KeepsTables (reads : ℕ → Prop) (d d' : Desk) : Prop where
  /-- A table stays in its cell. -/
  tableAt : ∀ {c t}, d.tableAt c = some t → d'.tableAt c = some t
  /-- Entries that were read stay read. -/
  built : ∀ {c}, d.isBuilt c = true → d'.isBuilt c = true
  /-- Only the entries of the tables in these cells were read. -/
  read : ∀ {c}, d'.isBuilt c = true → d.isBuilt c = true ∨ reads c

namespace KeepsTables

theorem mono {reads' : ℕ → Prop} (h : KeepsTables reads d d') (hr : ∀ c, reads c → reads' c) :
    KeepsTables reads' d d' where
  tableAt := h.tableAt
  built := h.built
  read hc := (h.read hc).imp_right (hr _)

/-- Nothing happens to the tables. -/
theorem of_eq (h : d'.tables = d.tables) : KeepsTables reads d d' := by
  refine ⟨fun hc => ?_, fun hc => ?_, fun hc => .inl ?_⟩
  · rwa [Desk.tableAt, h]
  · rwa [isBuilt, h]
  · rwa [isBuilt, h] at hc

theorem trans (h : KeepsTables reads d d') (h' : KeepsTables reads d' d'') :
    KeepsTables reads d d'' where
  tableAt hc := h'.tableAt (h.tableAt hc)
  built hc := h'.built (h.built hc)
  read hc := (h'.read hc).elim h.read .inr

/-- A new table is in a new cell, and its entries were not read. -/
theorem addTable (d : Desk) (t : PrimeTable) : KeepsTables reads d (d.addTable t) where
  tableAt hc := by rwa [tableAt_addTable, if_neg (ne_size_of_tableAt hc)]
  built hc := by rwa [isBuilt_addTable]
  read hc := .inl (by rwa [isBuilt_addTable] at hc)

/-- Reading the entries of a table. -/
theorem markBuilt (d : Desk) (h : reads c) : KeepsTables reads d (d.markBuilt c) where
  tableAt hc := by rwa [tableAt_markBuilt]
  built {i} hi := by
    by_cases hic : i = c
    · subst hic
      exact isBuilt_markBuilt_self hi
    · rwa [isBuilt_markBuilt_of_ne d hic]
  read {i} hi := by
    by_cases hic : i = c
    · subst hic
      exact .inr h
    · exact .inl (by rwa [isBuilt_markBuilt_of_ne d hic] at hi)

end KeepsTables

/-- The tables stay, and the default table stays what it is. -/
structure Keeps (reads : ℕ → Prop) (d d' : Desk) : Prop where
  /-- The tables stay. -/
  tables : KeepsTables reads d d'
  /-- The default table is the same. -/
  defaultTable : d'.defaultTable = d.defaultTable

namespace Keeps

/-- Neither tables nor the default table are touched. -/
theorem of_eq (h : d'.tables = d.tables) (h' : d'.defaultTable = d.defaultTable) :
    Keeps reads d d' := ⟨.of_eq h, h'⟩

theorem refl (d : Desk) : Keeps reads d d := .of_eq rfl rfl

theorem trans (h : Keeps reads d d') (h' : Keeps reads d' d'') : Keeps reads d d'' :=
  ⟨h.tables.trans h'.tables, h'.defaultTable.trans h.defaultTable⟩

end Keeps

/-- The tables stay, and so does the default table if there is one. If there is none, one may be
made, with the limit of the settings that are active then. -/
structure KeepsDefault (reads : ℕ → Prop) (d d' : Desk) : Prop where
  /-- The tables stay. -/
  tables : KeepsTables reads d d'
  /-- A default table that is there stays what it is. -/
  stays : ∀ {c}, d.defaultTable = some c → d'.defaultTable = some c
  /-- A default table that is new has the limit of the settings. -/
  created : ∀ {c}, d.defaultTable = none → d'.defaultTable = some c →
    ∃ s t, d.currentSettings = .ok s ∧ d'.active = some s ∧ d'.tableAt c = some t ∧
      t.limit = s.smallPrimeLimit

namespace KeepsDefault

theorem of_keeps (h : Keeps reads d d') : KeepsDefault reads d d' where
  tables := h.tables
  stays hc := h.defaultTable.trans hc
  created hnone hc := absurd (hc.symm.trans (h.defaultTable.trans hnone)) (by simp)

theorem mono {reads' : ℕ → Prop} (h : KeepsDefault reads d d') (hr : ∀ c, reads c → reads' c) :
    KeepsDefault reads' d d' := ⟨h.tables.mono hr, h.stays, h.created⟩

/-- What is done before must not change the settings. -/
theorem trans (h : Keeps reads d d') (hs : d'.currentSettings = d.currentSettings)
    (h' : KeepsDefault reads d' d'') : KeepsDefault reads d d'' where
  tables := h.tables.trans h'.tables
  stays hc := h'.stays (h.defaultTable.trans hc)
  created hnone hc := by
    obtain ⟨s, t, hcur, hrest⟩ := h'.created (h.defaultTable.trans hnone) hc
    exact ⟨s, t, hs ▸ hcur, hrest⟩

/-- Making the default table. -/
theorem withDefaultTable {s : Settings} (h : d.defaultTable = none)
    (hs : d.currentSettings = .ok s) :
    KeepsDefault reads d (d.withDefaultTable s) where
  tables := by
    have hadd : KeepsTables reads { d with active := some s }
        (({ d with active := some s } : Desk).addTable s.standardTable) := .addTable _ _
    refine (KeepsTables.of_eq ?_).trans (hadd.trans (.of_eq ?_)) <;> rfl
  stays hc := absurd (hc.symm.trans h) (by simp)
  created _ hc := by
    obtain rfl := Option.some.inj hc
    refine ⟨s, s.standardTable, hs, rfl, ?_, s.limit_standardTable⟩
    exact (tableAt_addTable { d with active := some s } _ _).trans (if_pos rfl)

/-- Reading entries does not touch what was made. -/
theorem markBuilt (h : KeepsDefault reads d d') (hc : reads c) :
    KeepsDefault reads d (d'.markBuilt c) where
  tables := h.tables.trans (.markBuilt d' hc)
  stays := h.stays
  created hnone hc := by
    obtain ⟨s, t, hcur, hactive, htable, hlimit⟩ := h.created hnone hc
    exact ⟨s, t, hcur, hactive, by rwa [tableAt_markBuilt], hlimit⟩

end KeepsDefault

end Desk

/-! ### Errands -/

namespace Errand

variable {α β : Type} {reads : ℕ → Prop} {e : Errand α} {d : Desk}

/-- An errand that leaves the default table what it is, and reads some tables only. -/
def Keeps (reads : ℕ → Prop) (e : Errand α) : Prop := ∀ d, Desk.Keeps reads d (e d).2

theorem bind_run (e : Errand α) (f : α → Errand β) (d : Desk) :
    (e >>= f) d =
      match e d with
      | (.ok a, d') => f a d'
      | (.error x, d') => (.error x, d') := by
  change (match e d with | (r, d') => ExceptT.bindCont f r d') = _
  rcases e d with ⟨_ | _, d'⟩ <;> rfl

/-- What comes after the desk was looked at. -/
theorem get_bind_run (f : Desk → Errand β) (d : Desk) :
    ((MonadState.get : Errand Desk) >>= f) d = f d d := rfl

namespace Keeps

theorem pure (a : α) : Keeps reads (Pure.pure a : Errand α) := fun d => .refl d

/-- More tables may be read. -/
theorem mono {reads' : ℕ → Prop} (h : Keeps reads e) (hr : ∀ c, reads c → reads' c) :
    Keeps reads' e := by
  intro d
  have hd := h d
  exact ⟨hd.tables.mono hr, hd.defaultTable⟩

theorem throw (x : Failure) : Keeps reads (MonadExcept.throw x : Errand α) := fun d => .refl d

theorem bind {f : α → Errand β} (h : Keeps reads e) (hf : ∀ a, Keeps reads (f a)) :
    Keeps reads (e >>= f) := by
  intro d
  have hd := h d
  rw [bind_run]
  rcases he : e d with ⟨x | a, d'⟩ <;> rw [he] at hd
  · exact hd
  · exact hd.trans (hf a d')

/-- What comes after a refusal is not done. -/
theorem throwBind (x : Failure) (f : α → Errand β) :
    Keeps reads ((MonadExcept.throw x : Errand α) >>= f) := fun d => .refl d

theorem ite {c : Prop} [Decidable c] {e' : Errand α} (h : Keeps reads e) (h' : Keeps reads e') :
    Keeps reads (if c then e else e') := by
  split
  · exact h
  · exact h'

theorem get : Keeps reads (MonadState.get : Errand Desk) := fun d => .refl d

/-- A change of the desk that touches neither tables nor the default table. -/
theorem modify {f : Desk → Desk} (h : ∀ d, (f d).tables = d.tables)
    (h' : ∀ d, (f d).defaultTable = d.defaultTable) : Keeps reads (modify f : Errand PUnit) :=
  fun d => .of_eq (h d) (h' d)

/-- A computation that may fail, as an errand. What comes after it may use its value. -/
theorem liftBind {x : Except Failure α} {f : α → Errand β}
    (hf : ∀ a, x = .ok a → Keeps reads (f a)) :
    Keeps reads ((MonadLiftT.monadLift x : Errand α) >>= f) := by
  intro d
  cases x with
  | error y => exact .refl d
  | ok a => exact hf a rfl d

end Keeps

/-- The settings that are active afterwards. -/
theorem settings_run {s : Settings} (h : d.currentSettings = .ok s) :
    settings d = (.ok s, { d with active := some s }) := by
  unfold settings
  rw [get_bind_run, h]
  rfl

namespace Keeps

theorem settings : Keeps reads Errand.settings := by
  intro d
  obtain ⟨s, hs⟩ := d.exists_currentSettings
  rw [settings_run hs]
  exact .of_eq rfl rfl

theorem addTable (t : PrimeTable) : Keeps reads (Errand.addTable t) := fun d => ⟨.addTable d t, rfl⟩

/-- Reading a table. -/
theorem readTable {c : ℕ} (hc : reads c) : Keeps reads (Errand.readTable c) := by
  intro d
  rw [Errand.readTable, get_bind_run]
  cases d.tableAt c with
  | some t => exact ⟨.markBuilt d hc, rfl⟩
  | none => exact .refl d

end Keeps

/-- A default table that is there is the one. -/
theorem defaultTable_run_some {c : ℕ} (h : d.defaultTable = some c) :
    defaultTable d = (.ok c, d) := by
  unfold defaultTable
  rw [get_bind_run, h]
  rfl

/-- **How the default table is made.** -/
theorem defaultTable_run_none {s : Settings} (h : d.defaultTable = none)
    (hs : d.currentSettings = .ok s) :
    defaultTable d = (.ok d.tables.size, d.withDefaultTable s) := by
  unfold defaultTable
  rw [get_bind_run, h]
  dsimp only
  rw [bind_run, settings_run hs]
  rfl

/-- There is a default table after it was asked for. -/
theorem defaultTable_run (reads : ℕ → Prop) (d : Desk) :
    ∃ c, (defaultTable d).1 = .ok c ∧ (defaultTable d).2.defaultTable = some c ∧
      Desk.KeepsDefault reads d (defaultTable d).2 := by
  cases h : d.defaultTable with
  | some c =>
    rw [defaultTable_run_some h]
    exact ⟨c, rfl, h, .of_keeps (.refl d)⟩
  | none =>
    obtain ⟨s, hs⟩ := d.exists_currentSettings
    rw [defaultTable_run_none h hs]
    exact ⟨_, rfl, rfl, .withDefaultTable h hs⟩

end Errand

namespace Catalogue

open Errand

variable {reads : ℕ → Prop}

/-! ### The operations on what calls share -/

theorem asTable_eq_ok {o : Value} {c limit : ℕ} (h : asTable o = .ok (c, limit)) :
    o = .table c limit := by
  unfold asTable at h
  split at h
  · obtain ⟨rfl, rfl⟩ := Prod.mk.inj (Except.ok.inj h)
    rfl
  · exact absurd h (by simp)

/-- A value is the table in a cell. -/
def IsTableIn (o : Value) (c : ℕ) : Prop := ∃ limit, o = .table c limit

theorem keeps_newSource (script : Value) : Keeps reads (newSource script) := by
  unfold newSource
  exact .bind .get fun _ => .liftBind fun _ _ => .bind .get fun _ =>
    .bind (.modify (fun _ => rfl) fun _ => rfl) fun _ => .pure _

theorem keeps_newTable (limit : Value) : Keeps reads (newTable limit) := by
  unfold newTable
  split
  · exact .bind .settings fun _ => .bind (.addTable _) fun _ => .pure _
  · exact .liftBind fun _ _ => .liftBind fun _ _ => .bind (.addTable _) fun _ => .pure _

/-- Of all tables only the given one is read. -/
theorem keeps_tableEntry (o n : Value) : Keeps (IsTableIn o) (tableEntry o n) := by
  unfold tableEntry
  refine .liftBind fun x hx => .liftBind fun inside _ => ?_
  have hread : Keeps (IsTableIn o) (readTable x.1) := .readTable ⟨x.2, asTable_eq_ok hx⟩
  split
  · exact .ite (.throwBind _ _) (.bind hread fun _ => .pure _)
  · exact .ite (.throwBind _ _) (.bind hread fun _ => .throw _)
  · exact .ite (.throwBind _ _) (.bind hread fun _ => .throw _)

theorem keeps_tablePrimes (o n : Value) : Keeps (IsTableIn o) (tablePrimes o n) := by
  unfold tablePrimes
  refine .liftBind fun x hx => .liftBind fun inside _ => ?_
  have hread : Keeps (IsTableIn o) (readTable x.1) := .readTable ⟨x.2, asTable_eq_ok hx⟩
  refine .ite (.throwBind _ _) (.bind hread fun t => .liftBind fun i _ => ?_)
  split
  · exact .pure _
  · exact .throw _

theorem keeps_tableRest (o : Value) : Keeps (IsTableIn o) (tableRest o) := by
  unfold tableRest
  exact .liftBind fun x hx => .bind (.readTable ⟨x.2, asTable_eq_ok hx⟩) fun t => .pure _

theorem keeps_assignVariable (name v : Value) : Keeps reads (assignVariable name v) := by
  unfold assignVariable
  split
  · exact .liftBind fun _ _ => .bind (.modify (fun _ => rfl) fun _ => rfl) fun _ => .pure _
  · exact .throw _

theorem keeps_environmentSettings : Keeps reads environmentSettings := by
  unfold environmentSettings
  exact .bind .get fun _ => .liftBind fun _ _ => .pure _

theorem keeps_replaceSettings (v : Value) : Keeps reads (replaceSettings v) := by
  unfold replaceSettings
  split
  · exact .bind (.modify (fun _ => rfl) fun _ => rfl) fun _ => .pure _
  · exact .bind (.modify (fun _ => rfl) fun _ => rfl) fun _ => .pure _
  · exact .throw _

/-! ### All errands -/

/-- The operations that read the table that they are given. -/
def tableReaders : List String := ["sieve_is_prime", "sieve_primes", "sieve_not_prime"]

/-- An operation that reads tables reads the one in a cell. -/
def ReadsTable (name : String) (call : Call) (c : ℕ) : Prop :=
  name ∈ tableReaders ∧ ∃ o, call.operand "oracle" = some o ∧ IsTableIn o c

section Errands

variable {call : Call} {p q : Parameter}

theorem keeps_unary {f : Value → Errand Value}
    (h : ∀ x, call.bind [p] = .ok [x] → Keeps reads (f x)) :
    Keeps reads (do
      match ← call.bind [p] with
      | [x] => f x
      | _ => throw (.unworded .type)) := by
  refine .liftBind fun vs hvs => ?_
  split
  · exact h _ hvs
  · exact .throw _

theorem keeps_binary {f : Value → Value → Errand Value}
    (h : ∀ x y, call.bind [p, q] = .ok [x, y] → Keeps reads (f x y)) :
    Keeps reads (do
      match ← call.bind [p, q] with
      | [x, y] => f x y
      | _ => throw (.unworded .type)) := by
  refine .liftBind fun vs hvs => ?_
  split
  · exact h _ _ hvs
  · exact .throw _

/-- The table that is handed over for a first parameter. -/
theorem readsTable_of_bind {name : String} {ps : List Parameter} {o : Value} {vs : List Value}
    (hname : name ∈ tableReaders)
    (h : call.bind (Parameter.required "oracle" :: ps) = .ok (o :: vs))
    {c : ℕ} (hc : IsTableIn o c) : ReadsTable name call c :=
  ⟨hname, o, Call.operand_of_bind rfl h, hc⟩

end Errands

/-- **Errands** leave the default table what it is, with the exception of the one that asks for it
and of the one that replaces it. -/
theorem keeps_administration {name : String} {f : Call → Errand Value} (call : Call)
    (h : (name, .administer f) ∈ administration) (hget : name ≠ "get_default_oracle")
    (hset : name ≠ "set_default_oracle") : Keeps (ReadsTable name call) (f call) := by
  simp only [administration, Operation.errandNullary, Operation.errandUnary,
    Operation.errandBinary, List.mem_cons, Prod.mk.injEq, Operation.administer.injEq,
    List.not_mem_nil, or_false] at h
  rcases h with ⟨rfl, rfl⟩ | ⟨rfl, rfl⟩ | ⟨rfl, rfl⟩ | ⟨rfl, rfl⟩ | ⟨rfl, rfl⟩ | ⟨rfl, rfl⟩ |
    ⟨rfl, rfl⟩ | ⟨rfl, rfl⟩ | ⟨rfl, rfl⟩ | ⟨rfl, rfl⟩ | ⟨rfl, rfl⟩
  · exact keeps_unary fun x _ => keeps_newSource x
  · exact keeps_unary fun x _ => keeps_newTable x
  · exact keeps_binary fun x y hxy =>
      (keeps_tableEntry x y).mono fun c => readsTable_of_bind (by decide) hxy
  · exact keeps_binary fun x y hxy =>
      (keeps_tablePrimes x y).mono fun c => readsTable_of_bind (by decide) hxy
  · exact keeps_unary fun x hx =>
      (keeps_tableRest x).mono fun c => readsTable_of_bind (by decide) hx
  · exact absurd rfl hget
  · exact absurd rfl hset
  · exact keeps_binary fun x y _ => keeps_assignVariable x y
  · exact .liftBind fun _ _ => keeps_environmentSettings
  · exact .liftBind fun _ _ => .bind .settings fun _ => .pure _
  · exact keeps_unary fun x _ => keeps_replaceSettings x

/-- **Asking for the default table.** -/
theorem keepsDefault_defaultTableValue (d : Desk) :
    Desk.KeepsDefault reads d (defaultTableValue d).2 := by
  obtain ⟨c, hok, -, hkeeps⟩ := defaultTable_run reads d
  unfold defaultTableValue
  rw [bind_run]
  rcases hrun : Errand.defaultTable d with ⟨r, d'⟩
  rw [hrun] at hok hkeeps
  obtain rfl := hok
  -- the table is looked up, which leaves the desk as it is
  dsimp only
  rw [get_bind_run]
  cases d'.tableAt c <;> exact hkeeps

/-- **Replacing the default table** does nothing to the tables. -/
theorem tables_replaceDefaultTable (o : Value) (d : Desk) :
    (replaceDefaultTable o d).2.tables = d.tables := by
  unfold replaceDefaultTable
  split
  · rfl
  · rw [bind_run]
    cases asTable o <;> rfl

/-- What is found under the name of the errand that asks for the default table. -/
theorem keepsDefault_of_find? {f : Call → Errand Value}
    (h : find? "get_default_oracle" = some (.administer f)) (call : Call) (d : Desk) :
    Desk.KeepsDefault reads d (f call d).2 := by
  have hfind : find? "get_default_oracle" = some (Operation.errandNullary defaultTableValue) :=
    find?_of_mem_administration (by simp [administration])
  obtain rfl := Operation.administer.inj (Option.some.inj (h.symm.trans hfind))
  dsimp only
  rw [bind_run]
  cases call.bind [] with
  | error x => exact .of_keeps (.refl d)
  | ok vs => exact keepsDefault_defaultTableValue d

/-- The operation that replaces the default table. -/
theorem find?_set_default_oracle : find? "set_default_oracle" = some
    (Operation.errandUnary (Parameter.required "oracle") replaceDefaultTable) :=
  find?_of_mem_administration (by simp [administration])

/-- It does nothing to the tables, whatever is handed over. -/
theorem tables_errandUnary_replaceDefaultTable (call : Call) (d : Desk) :
    ((do
      match ← call.bind [Parameter.required "oracle"] with
      | [x] => replaceDefaultTable x
      | _ => throw (.unworded .type) : Errand Value) d).2.tables = d.tables := by
  rw [bind_run]
  cases call.bind [Parameter.required "oracle"] with
  | error x => rfl
  | ok vs =>
    change ((match vs with | [x] => replaceDefaultTable x | _ => _ : Errand Value) d).2.tables = _
    split
    · exact tables_replaceDefaultTable _ d
    · rfl

end Catalogue

/-! ### Searches -/

namespace Desk

variable {d : Desk}

/-- Reading the settings in a search. -/
theorem keeps_readSettings (reads : ℕ → Prop) (d : Desk) (footprint : Footprint) :
    ∃ d', (if footprint.settings then (Errand.settings.run d).2 else d) = d' ∧
      Keeps reads d d' ∧ d'.currentSettings = d.currentSettings := by
  refine ⟨_, rfl, ?_⟩
  split
  · obtain ⟨s, hs⟩ := d.exists_currentSettings
    have hrun : (Errand.settings.run d).2 = { d with active := some s } :=
      congrArg Prod.snd (Errand.settings_run hs)
    rw [hrun, hs]
    exact ⟨.of_eq rfl rfl, rfl⟩
  · exact ⟨.refl d, rfl⟩

/-- **What a search leaves behind.** The entries of a table were read only if the search says so,
and then they were those of the table that it was given, or else of the default one. -/
theorem keepsDefault_afterSearch (d : Desk) (cell : Option ℕ) (footprint : Footprint)
    (h : ∀ c, footprint.entries = true →
      cell.or (d.afterSearch cell footprint).defaultTable = some c → reads c) :
    KeepsDefault reads d (d.afterSearch cell footprint) := by
  obtain ⟨d₁, hd₁, hkeeps, hcur⟩ := keeps_readSettings reads d footprint
  unfold afterSearch at h ⊢
  simp only [hd₁] at h ⊢
  by_cases htable : footprint.table = true
  · simp only [htable, if_true] at h ⊢
    cases cell with
    | some c =>
      by_cases hentries : footprint.entries = true
      · simp only [hentries, if_true] at h ⊢
        exact (KeepsDefault.of_keeps hkeeps).markBuilt (h c trivial rfl)
      · simp only [hentries]
        exact .of_keeps hkeeps
    | none =>
      obtain ⟨c, hok, hdefault, hmade⟩ := Errand.defaultTable_run reads d₁
      have hdone : d₁.doing Errand.defaultTable = (some c, (Errand.defaultTable d₁).2) := by
        unfold doing
        rcases hrun : Errand.defaultTable d₁ with ⟨r, d₂⟩
        rw [hrun] at hok
        obtain rfl := hok
        rfl
      simp only [hdone] at h ⊢
      have hall := KeepsDefault.trans hkeeps hcur hmade
      by_cases hentries : footprint.entries = true
      · simp only [hentries, if_true] at h ⊢
        exact hall.markBuilt (h c trivial hdefault)
      · simp only [hentries]
        exact hall
  · simp only [htable]
    exact .of_keeps hkeeps

end Desk

end ExactNumerics
