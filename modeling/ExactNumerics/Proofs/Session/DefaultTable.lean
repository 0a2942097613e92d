import ExactNumerics.Proofs.Prime.Primality
import ExactNumerics.Proofs.Session.Step
import ExactNumerics.Proofs.Session.Tables

/-!
# The life of the default prime table

The default table is made by the first step that asks for it, and its limit is the one of the
settings that are active then. From there on it is the default table until it is replaced, whatever
settings are made active later, and whether or not its entries were read. Its entries are read by
steps that look something up in it, and once they were read they stay read. At each step the table
answers exactly for the numbers below its limit.

Settings and table are consulted in the right order for this: a step that makes the table makes its
settings active first.

## Main definitions

* `Desk.tableFor` — the table that a search uses
* `Session.Reads` — a step reads entries of the table in a cell
* `Session.DefaultTableLife` — the life of the default table

## Main results

* `Session.keepsTables_step`, `Session.keepsDefault_step` — one step
* `Session.exists_origin` — the step of a run that made or replaced the default table
* `Session.isPrime_step` — primality below the limit
* `Session.defaultTable_life` — all sessions
-/

namespace ExactNumerics

namespace Desk

variable {α : Type} {d : Desk} {settings : Settings}

/-- The table that a search uses: the given one, or else the default one, which is made for the
settings if there is none. -/
def tableFor (d : Desk) (cell : Option ℕ) (settings : Settings) : PrimeTable :=
  ((cell.or d.defaultTable).bind d.tableAt).getD settings.standardTable

/-- What a search consults. -/
def consulted (d : Desk) (cell : Option ℕ) (draws : Draws) (s : Search α) : Footprint :=
  match d.currentSettings with
  | .ok settings => (s.run ⟨settings, d.tableFor cell settings, d.digits⟩ ⟨draws, {}⟩).2.footprint
  | .error _ => {}

theorem search_eq (h : d.currentSettings = .ok settings) (cell : Option ℕ) (draws : Draws)
    (s : Search α) :
    d.search cell draws s =
      let (outcome, progress) := s.run ⟨settings, d.tableFor cell settings, d.digits⟩ ⟨draws, {}⟩
      (outcome, progress.draws, d.afterSearch cell progress.footprint) := by
  rw [search, h]
  rfl

theorem search_desk (d : Desk) (cell : Option ℕ) (draws : Draws) (s : Search α) :
    (d.search cell draws s).2.2 = d.afterSearch cell (d.consulted cell draws s) := by
  obtain ⟨settings, h⟩ := d.exists_currentSettings
  rw [search_eq h, consulted, h]

end Desk

namespace Session

variable {s s₁ t : Session} {r : Request} {p : Prepared} {c : ℕ}

/-! ### What a step reads -/

/-- The operation that was prepared reads entries of the table in a cell. It is a search that is not
refused and looks something up, in the table that it was given or else in the default one, or it is
one of the operations on tables, and the table is the one that it was given. -/
def Prepared.Reads (p : Prepared) (r : Request) (after : Desk) (c : ℕ) : Prop :=
  match p.operation with
  | .search access f => (p.table.isSome → access.table) ∧ (p.plan.given → access.draws) ∧
    (p.session.desk.consulted p.table p.plan.draws (f p.call)).entries = true ∧
      p.table.or after.defaultTable = some c
  | .administer _ => Catalogue.ReadsTable r.operation p.call c
  | _ => False

theorem Prepared.reads_of_search {access : SearchAccess} {f : Call → Search Answer}
    (h : p.operation = .search access f) {after : Desk} :
    p.Reads r after c ↔ (p.table.isSome → access.table) ∧ (p.plan.given → access.draws) ∧
      (p.session.desk.consulted p.table p.plan.draws (f p.call)).entries = true ∧
        p.table.or after.defaultTable = some c := by
  rw [Reads.eq_def, h]

theorem Prepared.reads_of_administer {f : Call → Errand Value} (h : p.operation = .administer f)
    {after : Desk} : p.Reads r after c ↔ Catalogue.ReadsTable r.operation p.call c := by
  rw [Reads.eq_def, h]

/-- A step reads entries of the table in a cell. -/
def Reads (s : Session) (r : Request) (c : ℕ) : Prop :=
  ∃ s₁ p, s.installSettings r.settings = .ok s₁ ∧ s₁.PreparedFor r p ∧
    p.Reads r (s.step r).2.desk c

/-! ### The desk in a step -/

theorem desk_keep (s : Session) (store : Option String) (a : Answer) :
    (s.keep store a).desk = s.desk := by
  cases store with
  | none => rfl
  | some name =>
    rw [keep, put]
    split <;> rfl

theorem desk_overwrite (s : Session) (w : Overwrite) : (s.overwrite w).desk = s.desk := by
  rw [overwrite]
  split <;> rfl

theorem desk_settle (o : Outcome) (cell : Option ℕ) (store : Option String) :
    ∃ sources, (settle o cell store).desk = { o.session.desk with sources } := by
  obtain ⟨sources, hok, herror⟩ := settle_eq o cell store
  refine ⟨sources, ?_⟩
  cases hout : o.outcome with
  | ok a => rw [hok a hout, desk_keep]
  | error f => rw [herror f hout]

/-- **The operation** keeps tables and default table, unless it is the one that replaces it. -/
theorem keepsDefault_outcome (hp : s.PreparedFor r p) (hr : r.operation ≠ "set_default_oracle") :
    Desk.KeepsDefault (p.Reads r p.outcome.session.desk) p.session.desk p.outcome.session.desk := by
  have hfind := hp.operation
  rcases p.outcome_cases with ⟨f, -, hs⟩ | hworks
  · rw [hs]
    exact .of_keeps (.refl _)
  cases hop : p.operation with
  | calculate f =>
    rw [hop] at hworks
    rw [hworks.2]
    exact .of_keeps (.refl _)
  | overwrite f =>
    rw [hop] at hworks
    obtain ⟨w, -, -, hs⟩ := hworks
    rw [hs, desk_overwrite]
    exact .of_keeps (.refl _)
  | search access f =>
    rw [hop] at hworks
    obtain ⟨htable, hdraws, hs⟩ := hworks
    rw [hs]
    dsimp only
    rw [Desk.search_desk]
    exact Desk.keepsDefault_afterSearch _ _ _ fun c he hc =>
      (Prepared.reads_of_search hop).mpr ⟨htable, hdraws, he, hc⟩
  | administer f =>
    rw [hop] at hworks hfind
    rw [hworks]
    have hmem := Catalogue.mem_administration_of_find? hfind
    by_cases hget : r.operation = "get_default_oracle"
    · rw [hget] at hfind
      exact Catalogue.keepsDefault_of_find? hfind p.call p.session.desk
    · exact .of_keeps ((Catalogue.keeps_administration p.call hmem hget hr).mono
        (fun c => (Prepared.reads_of_administer hop).mpr) p.session.desk)

/-- **No operation** loses a table, or the news that its entries were read. -/
theorem keepsTables_outcome (hp : s.PreparedFor r p) :
    Desk.KeepsTables (p.Reads r p.outcome.session.desk) p.session.desk p.outcome.session.desk := by
  by_cases hr : r.operation = "set_default_oracle"
  · have hfind := hp.operation
    rw [hr] at hfind
    have hop := Option.some.inj (hfind.symm.trans Catalogue.find?_set_default_oracle)
    rcases p.outcome_cases with ⟨f, -, hs⟩ | hworks
    · rw [hs]
      exact .of_eq rfl
    · rw [hop] at hworks
      rw [hworks]
      exact .of_eq (Catalogue.tables_errandUnary_replaceDefaultTable p.call p.session.desk)
  · exact (keepsDefault_outcome hp hr).tables

/-- What a step reads is told by the operation. -/
theorem reads_of_prepared (hset : s.installSettings r.settings = .ok s₁) (hp : s₁.PreparedFor r p)
    (hs : (s.step r).2 = settle p.outcome p.plan.cell r.store) (c : ℕ)
    (hc : p.Reads r p.outcome.session.desk c) : s.Reads r c := by
  refine ⟨s₁, p, hset, hp, ?_⟩
  obtain ⟨sources, hdesk⟩ := desk_settle p.outcome p.plan.cell r.store
  rw [hs, hdesk]
  rw [Prepared.Reads.eq_def] at hc ⊢
  exact hc

/-- Choosing a table adds one at most. -/
theorem keeps_chooseTable {reads : ℕ → Prop} {choice : TableChoice} {table : Option ℕ}
    (h : s.chooseTable choice = .ok (table, t)) :
    Desk.Keeps reads s.desk t.desk ∧ t.desk.currentSettings = s.desk.currentSettings := by
  rcases chooseTable_ok h with rfl | ⟨p, rfl⟩
  · exact ⟨.refl _, rfl⟩
  · exact ⟨⟨.addTable _ p, rfl⟩, rfl⟩

/-- **A step keeps the default table** once its settings are active, unless it replaces it. -/
theorem keepsDefault_step (hset : s.installSettings r.settings = .ok s₁)
    (hr : r.operation ≠ "set_default_oracle") :
    Desk.KeepsDefault (s.Reads r) s₁.desk (s.step r).2.desk := by
  rcases step_cases s r with ⟨f, hf, -, -⟩ | ⟨s₂, hset', ⟨f, -, -, hs⟩ | ⟨p, hp, -, hs⟩⟩
  · exact absurd (hset.symm.trans hf) (by simp)
  · obtain rfl := Except.ok.inj (hset.symm.trans hset')
    rw [hs]
    exact .of_keeps (.refl _)
  · obtain rfl := Except.ok.inj (hset.symm.trans hset')
    obtain ⟨hkeeps, hcur⟩ := keeps_chooseTable hp.table
    have hall := Desk.KeepsDefault.trans hkeeps hcur
      ((keepsDefault_outcome hp hr).mono (reads_of_prepared hset hp hs))
    obtain ⟨sources, hdesk⟩ := desk_settle p.outcome p.plan.cell r.store
    rw [hs, hdesk]
    exact ⟨hall.tables.trans (.of_eq rfl), hall.stays, hall.created⟩

/-- **A step keeps all tables.** -/
theorem keepsTables_step (s : Session) (r : Request) :
    Desk.KeepsTables (s.Reads r) s.desk (s.step r).2.desk := by
  rcases step_cases s r with ⟨f, -, -, hs⟩ | ⟨s₁, hset, ⟨f, -, -, hs⟩ | ⟨p, hp, -, hs⟩⟩
  · rw [hs]
    exact .of_eq rfl
  · obtain ⟨active, rfl⟩ := installSettings_ok hset
    rw [hs]
    exact .of_eq rfl
  · have hinstall : Desk.KeepsTables (s.Reads r) s.desk s₁.desk := by
      obtain ⟨active, rfl⟩ := installSettings_ok hset
      exact .of_eq rfl
    have hall := (hinstall.trans (keeps_chooseTable hp.table).1.tables).trans
      ((keepsTables_outcome hp).mono (reads_of_prepared hset hp hs))
    obtain ⟨sources, hdesk⟩ := desk_settle p.outcome p.plan.cell r.store
    rw [hs, hdesk]
    exact hall.trans (.of_eq rfl)

/-- Settings do not touch the default table. -/
theorem defaultTable_step (hr : r.operation ≠ "set_default_oracle")
    (hc : s.desk.defaultTable = some c) : (s.step r).2.desk.defaultTable = some c := by
  cases hset : s.installSettings r.settings with
  | error f => rwa [step_of_settings_error hset]
  | ok s₁ =>
    refine (keepsDefault_step hset hr).stays ?_
    obtain ⟨active, rfl⟩ := installSettings_ok hset
    exact hc

/-! ### Runs of steps -/

theorem isBuilt_after (rs : List Request) (h : s.desk.isBuilt c = true) :
    (s.after rs).desk.isBuilt c = true := by
  induction rs generalizing s with
  | nil => exact h
  | cons r rs ih => exact ih ((keepsTables_step s r).built h)

theorem tableAt_after (rs : List Request) {t : PrimeTable} (h : s.desk.tableAt c = some t) :
    (s.after rs).desk.tableAt c = some t := by
  induction rs generalizing s with
  | nil => exact h
  | cons r rs ih => exact ih ((keepsTables_step s r).tableAt h)

/-- **The default table stays** until it is replaced. -/
theorem defaultTable_after {rs : List Request}
    (hrs : ∀ r ∈ rs, r.operation ≠ "set_default_oracle") (hc : s.desk.defaultTable = some c) :
    (s.after rs).desk.defaultTable = some c := by
  induction rs generalizing s with
  | nil => exact hc
  | cons r rs ih =>
    exact ih (fun r' hr' => hrs r' (List.mem_cons_of_mem r hr'))
      (defaultTable_step (hrs r List.mem_cons_self) hc)

/-- A step makes the default table, in a cell and for some settings: the ones that are active when
its operation is run. -/
structure Creates (s : Session) (r : Request) (c : ℕ) (settings : Settings) (t : PrimeTable) :
    Prop where
  /-- There was no default table. -/
  before : s.desk.defaultTable = none
  /-- The settings are the active ones. -/
  current : ∃ s₁, s.installSettings r.settings = .ok s₁ ∧ s₁.desk.currentSettings = .ok settings
  /-- They stay active. -/
  active : (s.step r).2.desk.active = some settings
  /-- The default table is in the cell. -/
  after : (s.step r).2.desk.defaultTable = some c
  /-- The table was made. -/
  table : (s.step r).2.desk.tableAt c = some t
  /-- Its limit is the one of the settings. -/
  limit : t.limit = settings.smallPrimeLimit

/-- **A default table that is new was made** for the active settings, if it was not installed. -/
theorem exists_creates (hr : r.operation ≠ "set_default_oracle")
    (hnone : s.desk.defaultTable = none) (hc : (s.step r).2.desk.defaultTable = some c) :
    ∃ settings t, s.Creates r c settings t := by
  cases hset : s.installSettings r.settings with
  | error f =>
    rw [step_of_settings_error hset] at hc
    exact absurd (hc.symm.trans hnone) (by simp)
  | ok s₁ =>
    have hnone' : s₁.desk.defaultTable = none := by
      obtain ⟨active, rfl⟩ := installSettings_ok hset
      exact hnone
    obtain ⟨settings, t, hcur, hactive, htable, hlimit⟩ :=
      (keepsDefault_step hset hr).created hnone' hc
    exact ⟨settings, t, hnone, ⟨s₁, hset, hcur⟩, hactive, hc, htable, hlimit⟩

/-- A step left a default table in a cell: it replaced the one that was there, or it made one. The
table that was made is the one that is in the cell later. -/
def Leaves (s : Session) (r : Request) (c : ℕ) (later : Session) : Prop :=
  (r.operation = "set_default_oracle" ∧ (s.step r).2.desk.defaultTable = some c) ∨
    ∃ settings t, s.Creates r c settings t ∧ later.desk.tableAt c = some t

theorem Leaves.step {later : Session} (h : s.Leaves r c later) (r' : Request) :
    s.Leaves r c (later.step r').2 :=
  h.imp_right fun ⟨settings, t, hcreates, htable⟩ =>
    ⟨settings, t, hcreates, (keepsTables_step later r').tableAt htable⟩

/-- **Where the default table comes from.** In a run that began without one, some step replaced or
made it, and none replaced it afterwards. -/
theorem exists_origin (rs : List Request) (hnone : s.desk.defaultTable = none)
    (hc : (s.after rs).desk.defaultTable = some c) :
    ∃ before r later, rs = before ++ r :: later ∧
      (∀ r' ∈ later, r'.operation ≠ "set_default_oracle") ∧
        (s.after before).Leaves r c (s.after rs) := by
  -- the last step of the run replaced the table, or made it, or found it there
  induction rs using List.reverseRecOn with
  | nil => exact absurd (hc.symm.trans hnone) (by simp)
  | append_singleton rs r ih =>
    have hafter : s.after (rs ++ [r]) = ((s.after rs).step r).2 := after_append s rs [r]
    rw [hafter] at hc ⊢
    by_cases hr : r.operation = "set_default_oracle"
    · exact ⟨rs, r, [], rfl, by simp, .inl ⟨hr, hc⟩⟩
    cases hlast : (s.after rs).desk.defaultTable with
    | none =>
      obtain ⟨settings, t, hcreates⟩ := exists_creates hr hlast hc
      exact ⟨rs, r, [], rfl, by simp, .inr ⟨settings, t, hcreates, hcreates.table⟩⟩
    | some i =>
      obtain rfl := Option.some.inj ((defaultTable_step hr hlast).symm.trans hc)
      obtain ⟨before, r', later, rfl, hlater, hleaves⟩ := ih hlast
      refine ⟨before, r', later ++ [r], by simp, fun x hx => ?_, hleaves.step r⟩
      rcases List.mem_append.mp hx with hx | hx
      · exact hlater x hx
      · rwa [List.mem_singleton.mp hx]

/-! ### Primality -/

/-- The operation that was prepared is found when the values, the table and the draws are. -/
theorem prepare_eq_ok {op : Operation} {call : Call} {table : Option ℕ} {plan : DrawPlan}
    (hcall : s.handsOver r = .ok call) (htable : s.chooseTable r.table = .ok (table, t))
    (hplan : t.drawPlan r.draws = .ok plan) (hop : Catalogue.find? r.operation = some op) :
    s.prepare r = .ok ⟨t, op, call, table, plan⟩ := by
  simp only [handsOver, bind_eq_ok] at hcall
  obtain ⟨positional, hpos, named, hnamed, hcall⟩ := hcall
  obtain rfl := Except.ok.inj hcall
  rw [prepare, hpos, ok_bind, hnamed, ok_bind, htable, ok_bind]
  dsimp only
  rw [hplan, ok_bind, hop]
  rfl

theorem find?_is_prime : Catalogue.find? "is_prime" = some
    (Catalogue.fromInteger "is_prime" fun n => return .truth (← Search.isPrimeInteger n)) := rfl

open Search in
/-- The answer about a number that has an entry in the table. -/
theorem isPrimeInteger_run_of_lt {σ : Surroundings} {n : ℕ} (hlt : n < σ.table.limit)
    (p : Progress) : ∃ p', (isPrimeInteger n).run σ p = (.ok (decide n.Prime), p') := by
  have hanswer : Returns (isPrimeInteger n) σ p.draws fun b => b = decide n.Prime :=
    (returns_isPrime_of_answers (.inr hlt)).meets fun b _ hb =>
      Bool.eq_iff_iff.mpr ((hb.exact (.inl hlt)).trans decide_eq_true_iff.symm)
  exact hanswer.exists_run_eq

/-- **Primality below the limit** of the table that is used is exact. -/
theorem isPrime_step {call : Call} {plan : DrawPlan} {settings : Settings} {n : ℕ}
    (hop : r.operation = "is_prime") (htable : r.table = .standard)
    (hset : s.installSettings r.settings = .ok s₁) (hcall : s₁.handsOver r = .ok call)
    (hn : call.bind [Parameter.required "n"] = .ok [.integer n])
    (hplan : s₁.drawPlan r.draws = .ok plan) (hcur : s₁.desk.currentSettings = .ok settings)
    (hlt : n < (s₁.desk.tableFor none settings).limit) :
    (s.step r).1.outcome = .ok (.exact (.truth (decide n.Prime))) := by
  have hprep := prepare_eq_ok hcall (by rw [htable]; rfl) hplan (hop ▸ find?_is_prime)
  let σ : Search.Surroundings := ⟨settings, s₁.desk.tableFor none settings, s₁.desk.digits⟩
  obtain ⟨p', hrun⟩ := isPrimeInteger_run_of_lt (σ := σ) hlt ⟨plan.draws, {}⟩
  rw [step, hset]
  dsimp only
  rw [hprep]
  dsimp only
  rw [Catalogue.fromInteger, Operation.searchUnary, perform]
  simp only [Desk.search_eq hcur]
  rw [if_neg (by simp)]
  simp only [Search.run_bind, Search.run_liftM, hn, Value.checkInteger, σ, hrun, Search.run_pure]
  rfl

/-! ### All sessions -/

/-- The life of the default table, from a session on. -/
structure DefaultTableLife (s : Session) : Prop where
  /-- A default table is there because it was installed, or it was made for the settings that were
  active in the step that made it. Then it still has the limit of these settings. -/
  origin : ∀ rs c, s.desk.defaultTable = none → (s.after rs).desk.defaultTable = some c →
    ∃ before r later, rs = before ++ r :: later ∧
      (∀ r' ∈ later, r'.operation ≠ "set_default_oracle") ∧
        (s.after before).Leaves r c (s.after rs)
  /-- It stays what it is until it is replaced. -/
  stays : ∀ rs c t, (∀ r ∈ rs, r.operation ≠ "set_default_oracle") →
    s.desk.defaultTable = some c → s.desk.tableAt c = some t →
      (s.after rs).desk.defaultTable = some c ∧ (s.after rs).desk.tableAt c = some t
  /-- Entries that were read stay read, in all tables. -/
  built_stays : ∀ rs c, s.desk.isBuilt c = true → (s.after rs).desk.isBuilt c = true
  /-- They are read by steps that read them. -/
  built_by_reading : ∀ r c, s.desk.isBuilt c = false → (s.step r).2.desk.isBuilt c = true →
    s.Reads r c
  /-- Primality below the limit of the table is exact. -/
  exact : ∀ r s₁ call plan settings n, r.operation = "is_prime" → r.table = .standard →
    s.installSettings r.settings = .ok s₁ → s₁.handsOver r = .ok call →
    call.bind [Parameter.required "n"] = .ok [.integer (n : ℕ)] →
    s₁.drawPlan r.draws = .ok plan → s₁.desk.currentSettings = .ok settings →
    n < (s₁.desk.tableFor none settings).limit →
      (s.step r).1.outcome = .ok (.exact (.truth (decide n.Prime)))

/-- **The default table is made once**, for the settings of that moment, and stays until it is
replaced. -/
theorem defaultTable_life (s : Session) : DefaultTableLife s where
  origin rs _ := exists_origin rs
  stays rs _ _ hrs hc ht := ⟨defaultTable_after hrs hc, tableAt_after rs ht⟩
  built_stays rs _ := isBuilt_after rs
  built_by_reading r c hbefore hafter :=
    ((keepsTables_step s r).read hafter).resolve_left (by simp [hbefore])
  exact _ _ _ _ _ _ hop htable hset hcall hn hplan hcur hlt :=
    isPrime_step hop htable hset hcall hn hplan hcur hlt

/-- A table that was made for one limit, and read under settings that ask for another. -/
theorem defaultTable_life_limit_ten :
    let make : Request :=
      { operation := "get_default_oracle",
        settings := some [("small_prime_limit", .value (.integer 10))] }
    let ask : Request :=
      { operation := "is_prime", positional := [.value (.integer 7)],
        settings := some [("small_prime_limit", .value (.integer 50))] }
    let s : Session := after {} [make]
    s.desk.defaultTable = some 0 ∧ (s.desk.tableAt 0).map (·.limit) = some 10 ∧
      s.desk.isBuilt 0 = false ∧ (s.step ask).2.desk.isBuilt 0 = true ∧ s.Reads ask 0 ∧
      (s.step ask).2.desk.defaultTable = some 0 ∧
      (s.step ask).2.desk.tableAt 0 = s.desk.tableAt 0 ∧
      (s.step ask).2.desk.active.map (·.smallPrimeLimit) = some 50 ∧
      (s.step ask).1.outcome = .ok (.exact (.truth (decide (Nat.Prime 7)))) ∧
      ∃ before r later, [make, ask] = before ++ r :: later ∧
        (after {} before).Leaves r 0 (s.step ask).2 := by
  intro make ask s
  have hdefault : s.desk.defaultTable = some 0 := by decide +kernel
  have hunread : s.desk.isBuilt 0 = false := by decide +kernel
  have hread : (s.step ask).2.desk.isBuilt 0 = true := by decide +kernel
  have hlimit : (s.desk.tableAt 0).map (·.limit) = some 10 := by decide +kernel
  obtain ⟨t, ht, ht10⟩ := Option.map_eq_some_iff.mp hlimit
  have h := defaultTable_life s
  obtain ⟨hstays, htable⟩ := h.stays [ask] 0 t (by decide) hdefault ht
  obtain ⟨before, r, later, hrun, -, hleaves⟩ :=
    (defaultTable_life {}).origin [make, ask] 0 rfl hstays
  have hprime := h.exact ask _ _ _ _ 7 rfl rfl rfl rfl rfl rfl rfl (by decide +kernel)
  exact ⟨hdefault, hlimit, hunread, hread, h.built_by_reading ask 0 hunread hread, hstays,
    htable.trans ht.symm, by decide +kernel, hprime, before, r, later, hrun, hleaves⟩

end Session

end ExactNumerics
