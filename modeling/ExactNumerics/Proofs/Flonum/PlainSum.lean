import ExactNumerics.Flonum.Sum
import Mathlib.Data.Multiset.Bind
import Mathlib.Data.Multiset.Range
import Mathlib.Tactic.Abel

/-!
# What a plain sum adds

The plain sum of a vector is made of partial sums, of halves, of blocks and of every eighth element
of a block. In whatever order that is, every element is added once and nothing else is. Only in a
short vector the elements are added to a zero, one after the other.

The order of the additions makes a difference to the result, so the elements are kept as a multiset
with the double that came of them (`FlonumVector.AddedUp`), and what has to be shown of each partial
sum is at which places its elements are.

## Main definitions

* `FlonumVector.AddedUp` — a double that comes of adding some doubles in some order

## Main results

* `FlonumVector.addedUp_blockSum` — the plain sum of a block
* `FlonumVector.addedUp_plainSum` — the plain sum of a long vector adds each element once
* `FlonumVector.plainSum_of_size_lt` — the plain sum of a short one adds them from the left
-/

namespace ExactNumerics

namespace FlonumVector

open Multiset

variable {v : FlonumVector} {s t : Multiset Binary64} {x y : Binary64} {start n : ℕ}

/-! ### Rounded additions -/

/-- The double comes of adding the doubles of a multiset, each of them once, in some order and with
every addition rounded. -/
inductive AddedUp : Multiset Binary64 → Binary64 → Prop where
  /-- Nothing is added to a single one. -/
  | element (x : Binary64) : AddedUp {x} x
  /-- Two sums are added. -/
  | add {s t : Multiset Binary64} {x y : Binary64} (hs : AddedUp s x) (ht : AddedUp t y) :
    AddedUp (s + t) (x.add y)

/-- The elements at some places. -/
def elementsAt (v : FlonumVector) (places : Multiset ℕ) : Multiset Binary64 :=
  places.map fun i => v.getD i default

theorem elementsAt_add (v : FlonumVector) (p q : Multiset ℕ) :
    v.elementsAt (p + q) = v.elementsAt p + v.elementsAt q := Multiset.map_add _ _ _

/-- The places `start`, `start + 1` and so on, `n` of them. -/
def placesFrom (start n : ℕ) : Multiset ℕ := (range n).map (start + ·)

theorem placesFrom_add (start m n : ℕ) :
    placesFrom start (m + n) = placesFrom start m + placesFrom (start + m) n := by
  rw [placesFrom, range_add, Multiset.map_add, Multiset.map_map, placesFrom, placesFrom]
  congr 1
  exact Multiset.map_congr rfl fun i _ => (Nat.add_assoc start m i).symm

theorem coe_range' (start n : ℕ) : (List.range' start n : Multiset ℕ) = placesFrom start n := by
  rw [List.range'_eq_map_range]
  rfl

theorem map_getD_range (v : FlonumVector) :
    (List.range v.size).map (fun i => v.getD i default) = v.toList := by
  refine List.ext_getElem (by simp) fun i hi hi' => ?_
  have hlt : i < v.size := by simpa using hi
  simp [Array.getD, hlt]

/-- All elements of a vector. -/
theorem elementsAt_placesFrom_size (v : FlonumVector) :
    v.elementsAt (placesFrom 0 v.size) = v.toList := by
  rw [← coe_range', ← List.range_eq_range', elementsAt, map_coe, map_getD_range]

/-! ### One after the other -/

/-- Elements that are added to a sum. -/
theorem AddedUp.addAt (h : AddedUp s x) (places : List ℕ) :
    AddedUp (s + v.elementsAt places) (v.addAt x places) := by
  induction places generalizing s x with
  | nil => simpa [elementsAt, FlonumVector.addAt] using h
  | cons i places ih =>
    have hfirst := ih (h.add (.element (v.getD i default)))
    rwa [add_assoc, singleton_add] at hfirst

/-- Every eighth element. -/
theorem addedUp_laneSum (v : FlonumVector) (i rounds : ℕ) :
    AddedUp (v.elementsAt ((range (rounds + 1)).map fun k => i + 8 * k))
      (v.laneSum i (rounds + 1)) := by
  have hplaces : (range (rounds + 1)).map (fun k => i + 8 * k) =
      {i} + ((List.range rounds).map fun k => i + 8 * (k + 1) : List ℕ) := by
    rw [Nat.add_comm, range_add, Multiset.map_add, Multiset.map_map]
    refine congrArg _ (Multiset.map_congr rfl fun k _ => ?_)
    rw [Function.comp_apply, Nat.add_comm 1]
  rw [hplaces, elementsAt_add]
  exact (AddedUp.element _).addAt _

/-! ### Blocks -/

/-- The places of eight sums side by side are the first places. -/
theorem sum_lanes (start rounds : ℕ) :
    ((range 8).bind fun j => (range rounds).map fun k => start + j + 8 * k) =
      placesFrom start (8 * rounds) := by
  rw [bind_map_comm]
  induction rounds with
  | zero => rfl
  | succ rounds ih =>
    rw [range_succ, cons_bind, ih, Nat.mul_succ, placesFrom_add, add_comm]
    congr 1
    refine Multiset.map_congr rfl fun j _ => ?_
    omega

/-- The elements of eight sums side by side are the first elements. -/
theorem elementsAt_lanes (v : FlonumVector) (start rounds : ℕ) :
    let lane (j : ℕ) := v.elementsAt ((range rounds).map fun k => start + j + 8 * k)
    v.elementsAt (placesFrom start (8 * rounds)) =
      lane 0 + lane 1 + (lane 2 + lane 3) + (lane 4 + lane 5 + (lane 6 + lane 7)) := by
  have hrange : range 8 = (([0, 1, 2, 3, 4, 5, 6, 7] : List ℕ) : Multiset ℕ) := rfl
  rw [← sum_lanes, hrange]
  simp only [← cons_coe, coe_nil, cons_bind, zero_bind, elementsAt_add, add_zero]
  ac_rfl

/-- **The plain sum of a block** adds each of its elements once. -/
theorem addedUp_blockSum (v : FlonumVector) (start : ℕ) (hn : 8 ≤ n) :
    AddedUp (v.elementsAt (placesFrom start n)) (v.blockSum start n) := by
  obtain ⟨rounds, hrounds⟩ : ∃ rounds, n / 8 = rounds + 1 :=
    Nat.exists_eq_succ_of_ne_zero (by omega)
  have hlane (j : ℕ) := addedUp_laneSum v (start + j) rounds
  have hlanes := (((hlane 0).add (hlane 1)).add ((hlane 2).add (hlane 3))).add
    (((hlane 4).add (hlane 5)).add ((hlane 6).add (hlane 7)))
  have hall := hlanes.addAt (v := v) (List.range' (start + 8 * (rounds + 1)) (n % 8))
  rw [← elementsAt_lanes, coe_range', ← elementsAt_add, ← placesFrom_add, ← hrounds,
    Nat.div_add_mod] at hall
  exact hall

/-! ### All elements -/

/-- A part that is long enough for a block. -/
theorem addedUp_plainSumFrom (v : FlonumVector) (hn : 8 ≤ n) :
    AddedUp (v.elementsAt (placesFrom start n)) (v.plainSumFrom start n) := by
  induction n using Nat.strong_induction_on generalizing start with
  | h n ih =>
    rw [plainSumFrom, if_neg (by omega)]
    split
    · exact addedUp_blockSum v start hn
    · have hhalves : n / 2 / 8 * 8 + (n - n / 2 / 8 * 8) = n := by omega
      rw [← hhalves, placesFrom_add, elementsAt_add, hhalves]
      exact (ih _ (by omega) (by omega)).add (ih _ (by omega) (by omega))

/-- **The plain sum of a long vector** adds each element once, and nothing else. -/
theorem addedUp_plainSum (v : FlonumVector) (h : 8 ≤ v.size) : AddedUp v.toList v.plainSum := by
  rw [← elementsAt_placesFrom_size]
  exact addedUp_plainSumFrom v h

/-- **The plain sum of a short vector** adds the elements to a zero, from the left. -/
theorem plainSum_of_size_lt (h : v.size < 8) :
    v.plainSum = v.foldl Binary64.add (Binary64.zero false) := by
  rw [plainSum, plainSumFrom, if_pos h, FlonumVector.addAt, ← List.range_eq_range',
    ← Array.foldl_toList, ← map_getD_range, List.foldl_map]

/-- Eight elements are the least block: the greatest double and its negative, at the third and the
fourth place, are added to each other before they are added to the first. -/
example :
    let zero := Binary64.zero false
    let v : FlonumVector := #[.greatest, zero, .greatest, Binary64.greatest.neg, zero, zero, zero,
      zero]
    v.plainSum = .greatest ∧ v.foldl Binary64.add zero = .infinity false := by
  decide +kernel

end FlonumVector

end ExactNumerics
