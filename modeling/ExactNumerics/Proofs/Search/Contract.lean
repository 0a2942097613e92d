import ExactNumerics.Prime.Search
import Mathlib.Data.Int.Notation
import Mathlib.Data.Nat.Notation

/-!
# Contracts of searches

What is proved of a search is a *contract*: from a given source of draws it ends in an answer with
one property or in a failure with another one. A property may mention the source that is left,
which is how a failure can tell what was drawn before it.

Two things are the same for every search, so they are in the definition and not in the single
contracts. Whatever was consulted before makes no difference, so a contract holds for every
footprint. And a search only moves on in its stream, so the source that is left is the given one
after some more draws (`Draws.LeadsTo`).

## Main definitions

* `Draws.LeadsTo` — one source is another one after some more draws
* `Search.Meets` — the contract
* `Search.Returns` — the contract of a search that does not fail

## Main results

* `Search.Meets.bind` — contracts of consecutive searches
* `Search.Meets.weaken` — a weaker contract
* `Search.Returns.exists_run`, `Search.Returns.exists_run_eq`, `Search.Meets.of_ok` — from a
  contract to a run
-/

namespace ExactNumerics

/-! ### Sources that move on -/

/-- The source `d'` is the source `d` after some more draws. -/
structure Draws.LeadsTo (d d' : Draws) : Prop where
  /-- The stream stays. -/
  stream : d'.stream = d.stream
  /-- Draws are not taken back. -/
  taken : d.taken ≤ d'.taken

namespace Draws.LeadsTo

variable {d d' d'' : Draws}

theorem refl (d : Draws) : d.LeadsTo d := ⟨rfl, Nat.le_refl _⟩

theorem trans (h : d.LeadsTo d') (h' : d'.LeadsTo d'') : d.LeadsTo d'' :=
  ⟨h'.stream.trans h.stream, Nat.le_trans h.taken h'.taken⟩

theorem uniform (d : Draws) (lo : ℤ) (width : ℕ) : d.LeadsTo (d.uniform lo width).2 :=
  ⟨rfl, Nat.le_succ _⟩

end Draws.LeadsTo

namespace Search

variable {α β : Type}

/-! ### Runs -/

@[simp] theorem run_pure (a : α) (σ : Surroundings) (p : Progress) :
    (pure a : Search α).run σ p = (.ok a, p) := rfl

@[simp] theorem run_throw (f : Failure) (σ : Surroundings) (p : Progress) :
    (throw f : Search α).run σ p = (.error f, p) := rfl

/-- A computation that may fail, as a search, leaves everything as it is. -/
theorem run_liftM (x : Except Failure α) (σ : Surroundings) (p : Progress) :
    (liftM x : Search α).run σ p = (x, p) := by
  cases x <;> rfl

theorem run_bind (x : Search α) (f : α → Search β) (σ : Surroundings) (p : Progress) :
    (x >>= f).run σ p =
      match x.run σ p with
      | (.ok a, q) => (f a).run σ q
      | (.error e, q) => (.error e, q) := by
  change (ExceptT.bind (x σ) fun a => f a σ) p = _
  simp only [ExceptT.bind, ExceptT.mk, run]
  change (match x σ p with | (r, q) => ExceptT.bindCont (fun a => f a σ) r q) = _
  rcases x σ p with ⟨_ | _, q⟩ <;> rfl

theorem run_bind_ok {x : Search α} {f : α → Search β} {σ : Surroundings} {p q : Progress} {a : α}
    (h : x.run σ p = (.ok a, q)) : (x >>= f).run σ p = (f a).run σ q := by
  rw [run_bind, h]

/-! ### Contracts -/

/-- From the source `d`, the search ends in an answer for which `Q` holds or in a failure for which
`E` holds, each together with the source that is left. -/
def Meets (x : Search α) (σ : Surroundings) (d : Draws) (Q : α → Draws → Prop)
    (E : Failure → Draws → Prop) : Prop :=
  ∀ seen : Footprint, d.LeadsTo (x.run σ ⟨d, seen⟩).2.draws ∧
    match (x.run σ ⟨d, seen⟩).1 with
    | .ok a => Q a (x.run σ ⟨d, seen⟩).2.draws
    | .error f => E f (x.run σ ⟨d, seen⟩).2.draws

/-- From the source `d`, the search does not fail and its answer has the property `Q`. -/
def Returns (x : Search α) (σ : Surroundings) (d : Draws) (Q : α → Prop) : Prop :=
  Meets x σ d (fun a _ => Q a) fun _ _ => False

variable {x : Search α} {σ : Surroundings} {d : Draws} {Q Q' : α → Draws → Prop}
  {E E' : Failure → Draws → Prop}

/-- A contract has to be shown of the run from each footprint. -/
theorem Meets.of_run (h : ∀ seen, ∃ r d' seen', x.run σ ⟨d, seen⟩ = (r, ⟨d', seen'⟩) ∧
    d.LeadsTo d' ∧ match r with
      | .ok a => Q a d'
      | .error f => E f d') : Meets x σ d Q E := by
  intro seen
  obtain ⟨r, d', seen', hrun, hlead, hr⟩ := h seen
  rw [hrun]
  exact ⟨hlead, hr⟩

theorem Meets.weaken (h : Meets x σ d Q' E') (hQ : ∀ a d', d.LeadsTo d' → Q' a d' → Q a d')
    (hE : ∀ f d', d.LeadsTo d' → E' f d' → E f d') : Meets x σ d Q E := by
  intro seen
  obtain ⟨hlead, hr⟩ := h seen
  refine ⟨hlead, ?_⟩
  cases hres : (x.run σ ⟨d, seen⟩).1 with
  | ok a => rw [hres] at hr; exact hQ a _ hlead hr
  | error f => rw [hres] at hr; exact hE f _ hlead hr

/-- **Consecutive searches.** The second one starts from wherever the first one may end. -/
theorem Meets.bind {f : α → Search β} {R : β → Draws → Prop} (hx : Meets x σ d Q E)
    (hf : ∀ a d', d.LeadsTo d' → Q a d' → Meets (f a) σ d' R E) : Meets (x >>= f) σ d R E := by
  refine .of_run fun seen => ?_
  obtain ⟨hlead, hr⟩ := hx seen
  rw [run_bind]
  rcases hrun : x.run σ ⟨d, seen⟩ with ⟨a | a, q⟩ <;> rw [hrun] at hlead hr
  · exact ⟨_, _, _, rfl, hlead, hr⟩
  · obtain ⟨hlead', hr'⟩ := hf a q.draws hlead hr q.footprint
    exact ⟨_, _, _, rfl, hlead.trans hlead', hr'⟩

theorem Meets.pure {a : α} (h : Q a d) : Meets (Pure.pure a) σ d Q E :=
  .of_run fun _ => ⟨_, _, _, rfl, .refl d, h⟩

theorem Meets.throw {f : Failure} (h : E f d) : Meets (MonadExcept.throw f) σ d Q E :=
  .of_run fun _ => ⟨_, _, _, rfl, .refl d, h⟩

theorem Meets.ite {c : Prop} [Decidable c] {y : Search α} (hx : c → Meets x σ d Q E)
    (hy : ¬ c → Meets y σ d Q E) : Meets (if c then x else y) σ d Q E := by
  split
  · exact hx ‹_›
  · exact hy ‹_›

/-- A search that does not fail meets every contract about failures. -/
theorem Returns.meets {P : α → Prop} (h : Returns x σ d P) (hQ : ∀ a d', P a → Q a d') :
    Meets x σ d Q E :=
  h.weaken (fun a d' _ => hQ a d') fun _ _ _ => False.elim

theorem Returns.bind {P : α → Prop} {f : α → Search β} {R : β → Draws → Prop}
    (hx : Returns x σ d P) (hf : ∀ a d', d.LeadsTo d' → P a → Meets (f a) σ d' R E) :
    Meets (x >>= f) σ d R E :=
  (hx.meets fun _ _ h => h).bind hf

/-- A computation that may fail, as a search. -/
theorem Meets.liftM {y : Except Failure α} (hQ : ∀ a, y = .ok a → Q a d)
    (hE : ∀ f, y = .error f → E f d) : Meets (MonadLiftT.monadLift y) σ d Q E := by
  refine .of_run fun _ => ⟨y, d, _, run_liftM y σ _, .refl d, ?_⟩
  cases y with
  | ok a => exact hQ a rfl
  | error f => exact hE f rfl

/-! ### The effects -/

theorem Meets.table {Q : PrimeTable → Draws → Prop} (h : Q σ.table d) :
    Meets Search.table σ d Q E :=
  .of_run fun _ => ⟨_, _, _, rfl, .refl d, h⟩

theorem Meets.settings {Q : Settings → Draws → Prop} (h : Q σ.settings d) :
    Meets Search.settings σ d Q E :=
  .of_run fun _ => ⟨_, _, _, rfl, .refl d, h⟩

theorem Meets.lookup {n : ℕ} {Q : Bool → Draws → Prop} (h : Q (σ.table.isPrime n) d) :
    Meets (Search.lookup n) σ d Q E :=
  .of_run fun _ => ⟨_, _, _, rfl, .refl d, h⟩

theorem Meets.draw {lo : ℤ} {width : ℕ} {Q : ℤ → Draws → Prop}
    (h : Q (d.uniform lo width).1 (d.uniform lo width).2) : Meets (Search.draw lo width) σ d Q E :=
  .of_run fun _ => ⟨_, _, _, rfl, .uniform d lo width, h⟩

/-- Integers with too many digits cannot be noted, so `P` does not hold if it excludes them. Nothing
is drawn to find that out. -/
theorem Meets.note {is : List ℤ} {P : Prop} (hP : P → ∀ i ∈ is, σ.digits.admits i) :
    Meets (Search.note is) σ d (fun _ d' => (∀ i ∈ is, σ.digits.admits i) ∧ d' = d)
      fun f d' => f = .unworded .value ∧ ¬ P ∧ d' = d := by
  refine .of_run fun _ => ⟨_, _, _, rfl, .refl d, ?_⟩
  by_cases hall : is.all σ.digits.admits = true
  · rw [if_pos hall]
    exact ⟨List.all_eq_true.mp hall, rfl⟩
  · rw [if_neg hall]
    exact ⟨rfl, fun h => hall (List.all_eq_true.mpr (hP h)), rfl⟩

/-! ### From contracts to runs -/

/-- What a contract says of an answer. -/
theorem Meets.of_ok {p p' : Progress} {a : α} (h : Meets x σ p.draws Q E)
    (hrun : x.run σ p = (.ok a, p')) : Q a p'.draws := by
  have hr := (h p.footprint).2
  rwa [hrun] at hr

/-- The two ways in which a search under contract can end. -/
theorem Meets.exists_run (h : Meets x σ d Q E) (seen : Footprint) :
    (∃ a p', x.run σ ⟨d, seen⟩ = (.ok a, p') ∧ d.LeadsTo p'.draws ∧ Q a p'.draws) ∨
      ∃ f p', x.run σ ⟨d, seen⟩ = (.error f, p') ∧ d.LeadsTo p'.draws ∧ E f p'.draws := by
  obtain ⟨hlead, hr⟩ := h seen
  rcases hrun : x.run σ ⟨d, seen⟩ with ⟨a | a, q⟩ <;> rw [hrun] at hlead hr
  · exact .inr ⟨a, q, rfl, hlead, hr⟩
  · exact .inl ⟨a, q, rfl, hlead, hr⟩

/-- A search that does not fail has an answer. -/
theorem Returns.exists_run {P : α → Prop} {p : Progress} (h : Returns x σ p.draws P) :
    ∃ a p', x.run σ p = (.ok a, p') ∧ P a := by
  rcases Meets.exists_run h p.footprint with ⟨a, p', hrun, -, ha⟩ | ⟨_, _, _, _, hf⟩
  · exact ⟨a, p', hrun, ha⟩
  · exact hf.elim

/-- A search of which the answer is known. -/
theorem Returns.exists_run_eq {p : Progress} {a : α} (h : Returns x σ p.draws fun b => b = a) :
    ∃ p', x.run σ p = (.ok a, p') := by
  obtain ⟨b, p', hrun, rfl⟩ := h.exists_run
  exact ⟨p', hrun⟩

end Search

end ExactNumerics
