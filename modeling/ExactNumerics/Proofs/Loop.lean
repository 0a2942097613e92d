import Mathlib.Data.Nat.Notation
import Mathlib.Logic.Function.Iterate

/-!
# Loops

A loop repeats a step for as long as a test holds. A recursive function says what such a loop
returns, but its own condition may ask for more than the test does, so that the recursion ends for
all arguments. Whether the loop ends is then a question apart, and `StopsAfter` answers it: there is
a number of rounds before each of which the test holds, and after them it does not.

The two ways in which a recursion goes on are the two ways to build such a run from its end, so a
run is found by induction along the recursion. A loop has one run at most.

## Main definitions

* `StopsAfter test step s k t` — the loop from `s` stops in `t` after `k` rounds

## Main results

* `StopsAfter.round`, `stopsAfter_zero` — a loop that goes on, and one that stops at once
* `StopsAfter.unique` — a loop has one run at most
-/

namespace ExactNumerics

variable {α : Type} {test : α → Prop} {step : α → α} {s t u : α} {k l : ℕ}

/-- The loop that starts from `s` and repeats the step for as long as the test holds stops in `t`
after `k` rounds. -/
structure StopsAfter (test : α → Prop) (step : α → α) (s : α) (k : ℕ) (t : α) : Prop where
  /-- Before each round the test holds. -/
  holds : ∀ i < k, test (step^[i] s)
  /-- After the last one it does not. -/
  fails : ¬ test t
  /-- The rounds lead to the state in which the loop stops. -/
  iterate : step^[k] s = t

/-- A loop whose test fails does nothing. -/
theorem stopsAfter_zero (h : ¬ test s) : StopsAfter test step s 0 s where
  holds := fun i hi => absurd hi (Nat.not_lt_zero i)
  fails := h
  iterate := rfl

namespace StopsAfter

/-- **One more round**, in front of the others. -/
theorem round (hs : test s) (h : StopsAfter test step (step s) k t) :
    StopsAfter test step s (k + 1) t where
  holds := by
    intro i hi
    cases i with
    | zero => exact hs
    | succ i =>
      rw [Function.iterate_succ_apply]
      exact h.holds i (by omega)
  fails := h.fails
  iterate := by rw [Function.iterate_succ_apply, h.iterate]

/-- **A loop has one run at most.** -/
theorem unique (h : StopsAfter test step s k t) (h' : StopsAfter test step s l u) :
    k = l ∧ t = u := by
  have hkl : k = l := by
    rcases Nat.lt_trichotomy k l with hlt | heq | hgt
    · exact absurd (h'.holds k hlt) (h.iterate ▸ h.fails)
    · exact heq
    · exact absurd (h.holds l hgt) (h'.iterate ▸ h'.fails)
  exact ⟨hkl, by rw [← h.iterate, ← h'.iterate, hkl]⟩

end StopsAfter

end ExactNumerics
