import ExactNumerics.Failure
import Mathlib.Tactic.ByContra

/-!
# Computations that may fail

An operation is a chain of computations each of which may fail. If such a chain has an answer, every
link of it has one, and if a link has none, the chain fails with it.

What is reported of a cause depends on the limit on the digits: it is the cause if its wording can
be written, and otherwise an impossible value without a wording. So that a failure *is reported as*
one of a class says that it is one, and of every limit that the failure itself is reported, or that
one of the given integers has too many digits and a failure without a wording is reported.

## Main definitions

* `Failure.ReportedAs` — the class of what is reported, and the integers whose digits can prevent it
* `FailsBy` — a computation of which all failures are reported as those of one class

## Main results

* `bind_eq_ok`, `exists_bind_eq_error` — a chain of two with an answer, and one without
* `mapM_eq_ok`, `exists_of_mem_mapM`, `exists_of_mapM_eq_ok` — a computation for each item of a list
* `Failure.kind_reported_iff`, `Failure.reported_eq_or` — the two reports on a cause
* `FailsBy.bind`, `FailsBy.mapM` — failures of one class
-/

namespace ExactNumerics

variable {α β : Type}

@[simp]
theorem ok_bind (a : α) (f : α → Except Failure β) : (Except.ok a >>= f) = f a := rfl

@[simp]
theorem pure_eq_ok (a : α) : (pure a : Except Failure α) = .ok a := rfl

@[simp]
theorem throw_eq_error (e : Failure) : (throw e : Except Failure α) = .error e := rfl

/-- A chain with an answer. -/
theorem bind_eq_ok {x : Except Failure α} {f : α → Except Failure β} {b : β} :
    x >>= f = .ok b ↔ ∃ a, x = .ok a ∧ f a = .ok b := by
  cases x with
  | error e =>
    refine iff_of_false (fun h => ?_) ?_
    · exact absurd h (by simp [bind, Except.bind])
    · rintro ⟨a, h, -⟩
      exact absurd h (by simp)
  | ok a => simp

/-- Computations made for each item of a list, none of which fails. -/
theorem mapM_eq_ok {f : α → Except Failure β} {g : α → β} {l : List α}
    (h : ∀ a ∈ l, f a = .ok (g a)) : l.mapM f = .ok (l.map g) := by
  induction l with
  | nil => rfl
  | cons a l ih =>
    rw [List.mapM_cons, h a List.mem_cons_self, ok_bind,
      ih fun a' ha' => h a' (List.mem_cons_of_mem a ha'), ok_bind]
    rfl

/-- What was computed for the items of a list was computed for one of them. -/
theorem exists_of_mem_mapM {f : α → Except Failure β} {l : List α} {l' : List β} {b : β}
    (h : l.mapM f = .ok l') (hb : b ∈ l') : ∃ a ∈ l, f a = .ok b := by
  induction l generalizing l' with
  | nil =>
    obtain rfl := Except.ok.inj h
    exact absurd hb List.not_mem_nil
  | cons a l ih =>
    simp only [List.mapM_cons, bind_eq_ok] at h
    obtain ⟨b₀, hb₀, bs, hbs, h⟩ := h
    obtain rfl := Except.ok.inj h
    rcases List.mem_cons.mp hb with rfl | hb
    · exact ⟨a, List.mem_cons_self, hb₀⟩
    · obtain ⟨a', ha', hf⟩ := ih hbs hb
      exact ⟨a', List.mem_cons_of_mem a ha', hf⟩

namespace Failure

variable {f : Failure} {limit : DigitLimit} {k : Kind} {is js : List Int}

theorem isWritable_iff : f.isWritable limit ↔ ∀ i ∈ f.integers, limit.admits i := List.all_eq_true

theorem reported_of_admits (h : ∀ i ∈ f.integers, limit.admits i) : f.reported limit = f :=
  if_pos (isWritable_iff.mpr h)

theorem reported_of_not_admits {i : Int} (hi : i ∈ f.integers) (h : ¬ limit.admits i) :
    f.reported limit = unworded .value :=
  if_neg fun hall => h (isWritable_iff.mp hall i hi)

/-- Without a limit the cause itself is reported. -/
@[simp]
theorem reported_none (f : Failure) : f.reported none = f := reported_of_admits fun _ _ => rfl

@[simp]
theorem reporting_ok (limit : DigitLimit) (a : α) : reporting limit (.ok a) = .ok a := rfl

@[simp]
theorem reporting_error (limit : DigitLimit) (f : Failure) :
    reporting limit (.error f : Except Failure α) = .error (f.reported limit) := rfl

/-- A report on an answer is the answer. -/
theorem reporting_eq_ok_iff {x : Except Failure α} {a : α} :
    reporting limit x = .ok a ↔ x = .ok a := by
  cases x <;> simp

/-- A report on a failure is a report on its cause. -/
theorem reporting_eq_error_iff {x : Except Failure α} :
    reporting limit x = .error f ↔ ∃ g, x = .error g ∧ g.reported limit = f := by
  cases x <;> simp

/-- What is reported is the cause, or else an integer in its wording has too many digits. -/
theorem reported_eq_or (limit : DigitLimit) (f : Failure) :
    f.reported limit = f ∨
      f.reported limit = unworded .value ∧ ∃ i ∈ f.integers, ¬ limit.admits i := by
  by_cases h : ∀ i ∈ f.integers, limit.admits i
  · exact .inl (reported_of_admits h)
  · have hmany : ∃ i ∈ f.integers, ¬ limit.admits i := by simpa using h
    obtain ⟨i, hi, hnot⟩ := hmany
    exact .inr ⟨reported_of_not_admits hi hnot, i, hi, hnot⟩

/-! #### Integers in wordings

The wording is put together part by part, and most parts have no integer. -/

/-- The failure is one of the class `k`, and is reported for what it is, unless one of the integers
`is` has too many digits and an impossible value without a wording is reported. -/
structure ReportedAs (k : Kind) (is : List Int) (f : Failure) : Prop where
  /-- The class of the failure. -/
  kind_eq : f.kind = k
  /-- What is reported within a limit on the digits. -/
  reported_eq : ∀ limit, f.reported limit = f ∨
    f.reported limit = unworded .value ∧ ∃ i ∈ is, ¬ limit.admits i

namespace ReportedAs

/-- The wording of a failure of the class has no integer that is larger than all the given ones. -/
theorem of_kind (hk : f.kind = k) (h : ∀ i ∈ f.integers, ∃ j ∈ is, i.natAbs ≤ j.natAbs) :
    f.ReportedAs k is := by
  refine ⟨hk, fun limit => ?_⟩
  rcases reported_eq_or limit f with heq | ⟨heq, i, hi, hnot⟩
  · exact .inl heq
  · obtain ⟨j, hj, hle⟩ := h i hi
    exact .inr ⟨heq, j, hj, fun hadmits => hnot (DigitLimit.admits_of_natAbs_le hadmits hle)⟩

/-- The wording has given integers only. -/
theorem of_subset (hk : f.kind = k) (h : f.integers ⊆ is) : f.ReportedAs k is :=
  of_kind hk fun i hi => ⟨i, h hi, Nat.le_refl _⟩

theorem mono (h : f.ReportedAs k is) (hsub : is ⊆ js) : f.ReportedAs k js :=
  ⟨h.kind_eq, fun limit => (h.reported_eq limit).imp_right
    fun ⟨heq, i, hi, hnot⟩ => ⟨heq, i, hsub hi, hnot⟩⟩

end ReportedAs

end Failure

/-! ### Failures of one class -/

/-- The computation fails, if at all, with a failure that is reported as one of the class `k`,
unless one of the integers `is` has too many digits. -/
def FailsBy (k : Failure.Kind) (is : List Int) (x : Except Failure α) : Prop :=
  ∀ f, x = .error f → f.ReportedAs k is

namespace FailsBy

variable {k : Failure.Kind} {is js : List Int} {x : Except Failure α}

theorem ok (a : α) : FailsBy k is (.ok a) := fun _ h => absurd h (by simp)

theorem error {f : Failure} (h : f.ReportedAs k is) :
    FailsBy k is (.error f : Except Failure α) := by
  intro f' hf
  rw [← Except.error.inj hf]
  exact h

theorem mono (h : FailsBy k is x) (hsub : is ⊆ js) : FailsBy k js x :=
  fun f hf => (h f hf).mono hsub

/-- A chain fails with one of its links. -/
theorem bind {g : α → Except Failure β} (hx : FailsBy k is x)
    (hg : ∀ a, x = .ok a → FailsBy k is (g a)) : FailsBy k is (x >>= g) := by
  cases x with
  | error f => exact .error (hx f rfl)
  | ok a => exact hg a rfl

theorem ite {c : Prop} [Decidable c] {y : Except Failure α} (hx : c → FailsBy k is x)
    (hy : ¬ c → FailsBy k is y) : FailsBy k is (if c then x else y) := by
  split
  · exact hx ‹_›
  · exact hy ‹_›

theorem mapM {g : α → Except Failure β} {l : List α} (hg : ∀ a ∈ l, FailsBy k is (g a)) :
    FailsBy k is (l.mapM g) := by
  induction l with
  | nil => exact .ok []
  | cons a l ih =>
    rw [List.mapM_cons]
    exact (hg a List.mem_cons_self).bind fun b _ =>
      (ih fun a' ha' => hg a' (List.mem_cons_of_mem a ha')).bind fun bs _ => .ok (b :: bs)

end FailsBy

end ExactNumerics
