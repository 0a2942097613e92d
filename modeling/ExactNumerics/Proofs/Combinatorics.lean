import ExactNumerics.Combinatorics
import ExactNumerics.Proofs.Search.Contract
import Mathlib.Data.Nat.Factorial.Basic
import Mathlib.Tactic.Ring

/-!
# Three ways to a factorial

A factorial is read from a table, or accumulated from the end of the table, or it is a product whose
factors are split by their places again and again. Two settings choose among the three, and nothing
relates these settings to each other, so each way has to be right wherever it may be taken.

The first two follow the recursion of the factorial. The third one does not: it splits
`n * (n - s) * (n - 2 * s) * ⋯` into the factors in even and in odd places, which are two products
of the same form with twice the stride. But taking off the first factor is still possible. It is the
first factor in an even place, so by induction it comes off the one half, and what is left of that
half are the even places of the product without it. For the stride one, this is the recursion of the
factorial.

## Main results

* `factorialTable_succ_eq` — the table
* `foldl_mul_factorialTable` — the accumulation
* `strideProduct_eq_mul`, `strideProduct_one` — the product that is split
* `factorialWith_eq` — the factorial, with any settings
* `factorials_agree` — all three ways, and the search
-/

namespace ExactNumerics

open Nat

/-! ### The table -/

/-- **The table holds the factorials.** -/
theorem factorialTable_succ_eq (n : ℕ) :
    factorialTable (n + 1) = ((List.range (n + 1)).map Nat.factorial).toArray := by
  induction n with
  | zero => rfl
  | succ n ih =>
    rw [factorialTable, Nat.add_sub_cancel] at ih ⊢
    rw [List.range_succ, List.foldl_append, ih, List.range_succ (n := n + 1)]
    simp [Nat.factorial_succ, mul_comm]

theorem size_factorialTable {size : ℕ} (h : 0 < size) : (factorialTable size).size = size := by
  obtain ⟨n, rfl⟩ := Nat.exists_eq_add_one_of_ne_zero h.ne'
  simp [factorialTable_succ_eq]

theorem getElem?_factorialTable {size n : ℕ} (h : n < size) :
    (factorialTable size)[n]? = some n ! := by
  obtain ⟨m, rfl⟩ := Nat.exists_eq_add_one_of_ne_zero (Nat.ne_zero_of_lt h)
  simp [factorialTable_succ_eq, h]

/-! ### The accumulation -/

/-- **Multiplying on from a factorial.** -/
theorem foldl_mul_range' (m k : ℕ) : (List.range' (m + 1) k).foldl (· * ·) m ! = (m + k)! := by
  induction k generalizing m with
  | zero => rfl
  | succ k ih =>
    rw [List.range'_succ, List.foldl_cons, mul_comm, ← Nat.factorial_succ, ih]
    congr 1
    ring

/-- From the last entry of a table on. -/
theorem foldl_mul_factorialTable {size n : ℕ} (hpos : 0 < size) (h : size ≤ n) :
    (List.range' size (n + 1 - size)).foldl (· * ·) ((factorialTable size).getD (size - 1) 1) =
      n ! := by
  obtain ⟨m, rfl⟩ := Nat.exists_eq_add_one_of_ne_zero hpos.ne'
  have hlast : (factorialTable (m + 1)).getD m 1 = m ! := by simp [getElem?_factorialTable]
  rw [Nat.add_sub_cancel, hlast, foldl_mul_range']
  congr 1
  omega

/-! ### The product that is split -/

section Stride

variable {n s : ℕ}

theorem strideProduct_of_lt (hs : 0 < s) (h : s < n) :
    strideProduct n s = strideProduct n (2 * s) * strideProduct (n - s) (2 * s) := by
  rw [strideProduct, if_pos ⟨hs, h⟩]

/-- A single factor. -/
theorem strideProduct_of_le (h : n ≤ s) : strideProduct n s = n := by
  rw [strideProduct, if_neg (by omega)]

/-- **The first factor comes off.** -/
theorem strideProduct_eq_mul (hs : 0 < s) (h : s < n) :
    strideProduct n s = n * strideProduct (n - s) s := by
  induction n, s using strideProduct.induct with
  | case1 n s _ ih _ =>
    rw [strideProduct_of_lt hs h]
    by_cases htwo : 2 * s < n
    · rw [ih (by omega) htwo, strideProduct_of_lt (n := n - s) hs (by omega),
        show n - s - s = n - 2 * s by omega]
      ring
    · rw [strideProduct_of_le (n := n) (by omega), strideProduct_of_le (n := n - s) (by omega),
        strideProduct_of_le (n := n - s) (by omega)]
  | case2 n s hnot => exact absurd ⟨hs, h⟩ hnot

/-- **With the stride one, it is the factorial.** -/
theorem strideProduct_one (h : 0 < n) : strideProduct n 1 = n ! := by
  induction n, h using Nat.le_induction with
  | base => rw [strideProduct_of_le le_rfl, Nat.factorial_one]
  | succ n hn ih =>
    rw [strideProduct_eq_mul Nat.one_pos (by omega), Nat.add_sub_cancel, ih, Nat.factorial_succ]

end Stride

/-! ### The factorial -/

/-- **The settings choose a way, but not the result.** -/
theorem factorialWith_eq (settings : Settings) (n : ℕ) : factorialWith settings n = n ! := by
  have hpos := settings.factorialTableSize_pos
  have hsize := size_factorialTable hpos
  rw [factorialWith]
  split
  · rename_i hlt
    have hget := getElem?_factorialTable (hsize ▸ hlt)
    exact Option.some.inj ((Array.getElem?_eq_getElem hlt).symm.trans hget)
  · rename_i hnlt
    rw [hsize] at hnlt ⊢
    split
    · exact foldl_mul_factorialTable hpos (by omega)
    · exact strideProduct_one (by omega)

/-- The search reads the settings and nothing else. -/
theorem Search.returns_factorial (n : ℕ) (σ : Surroundings) (d : Draws) :
    Returns (Search.factorial n) σ d fun m => m = n ! := by
  refine Returns.bind (P := fun settings => settings = σ.settings) ?_ ?_
  · exact .settings rfl
  · rintro _ d' - rfl
    exact .pure (factorialWith_eq σ.settings n)

theorem Search.factorial_run (n : ℕ) (σ : Surroundings) (p : Progress) :
    ∃ p', (Search.factorial n).run σ p = (.ok n !, p') :=
  (returns_factorial n σ p.draws).exists_run_eq

/-- **All three ways lead to the factorial.** The table, the accumulation from the end of a table of
any size and the product that is split agree on every number on which they may be used. So the
search has the factorial as its answer in any surroundings, whatever the settings say. -/
theorem factorials_agree (n : ℕ) :
    (∀ size, n < size → (factorialTable size)[n]? = some n !) ∧
      (∀ size, 0 < size → size ≤ n →
        (List.range' size (n + 1 - size)).foldl (· * ·)
          ((factorialTable size).getD (size - 1) 1) = n !) ∧
      (0 < n → strideProduct n 1 = n !) ∧
      (∀ settings, factorialWith settings n = n !) ∧
      ∀ σ p, ∃ p', (Search.factorial n).run σ p = (.ok n !, p') := by
  refine ⟨?_, ?_, strideProduct_one, fun settings => factorialWith_eq settings n,
    Search.factorial_run n⟩
  · intro size h
    exact getElem?_factorialTable h
  · intro size hpos h
    exact foldl_mul_factorialTable hpos h

/-- A product that is split, with a table of three and accumulation below five. -/
theorem factorials_agree_seven :
    (∃ settings : Settings, settings.factorialTableSize = 3 ∧ settings.simpleFactorialCutoff = 5 ∧
      factorialWith settings 7 = 5040) ∧
      (factorialTable 8)[7]? = some 5040 ∧
      (List.range' 3 5).foldl (· * ·) ((factorialTable 3).getD 2 1) = 5040 ∧
      strideProduct 7 1 = 5040 := by
  obtain ⟨htable, haccumulate, hstride, hsettings, -⟩ := factorials_agree 7
  exact ⟨⟨{ factorialTableSize := 3, simpleFactorialCutoff := 5 }, rfl, rfl, hsettings _⟩,
    htable 8 (by decide), haccumulate 3 (by decide) (by decide), hstride (by decide)⟩

end ExactNumerics
