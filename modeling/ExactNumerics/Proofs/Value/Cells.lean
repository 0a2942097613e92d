import ExactNumerics.Session.Answer
import ExactNumerics.Value.Nested
import Mathlib.Data.Nat.Notation
import Mathlib.Logic.Basic

/-!
# The cells that show in a value

A value shows the vectors of some cells: its own if it is a vector, and those of the vectors in it
if it is a list. Overwriting a vector shows in the values that show its cell, and in no others.

## Main definitions

* `Value.vectors`, `Value.cells` — the vectors in a value, and their cells

## Main results

* `Value.vectors_mapVectors`, `Value.mapVectors_eq_self` — replacing the vectors in a value
* `Value.cells_renewed`, `Value.renewed_of_notMem` — overwriting a vector
* `Value.cells_unstored`, `Value.lt_of_mem_cells_known` — values that are written out or stored
-/

namespace ExactNumerics

namespace Value

mutual

/-- The vectors in a value, with their cells. -/
def vectors : Value → List (FlonumVector × Option ℕ)
  | vector v cell => [(v, cell)]
  | list vs => vectorsAll vs
  | tuple vs => vectorsAll vs
  | power b e => vectors b ++ vectors e
  | _ => []

/-- The vectors in some values, with their cells. -/
def vectorsAll : List Value → List (FlonumVector × Option ℕ)
  | [] => []
  | v :: vs => vectors v ++ vectorsAll vs

end

/-- The cells of the vectors in a value. -/
def cells (x : Value) : List ℕ := x.vectors.filterMap (·.2)

/-- The cells of a list are those of its items. -/
theorem exists_of_mem_cells_list {vs : List Value} {c : ℕ} (h : c ∈ (list vs).cells) :
    ∃ v ∈ vs, c ∈ v.cells := by
  rw [cells, vectors] at h
  induction vs with
  | nil => exact absurd h List.not_mem_nil
  | cons v vs ih =>
    rw [vectorsAll, List.filterMap_append] at h
    rcases List.mem_append.mp h with h | h
    · exact ⟨v, List.mem_cons_self, h⟩
    · obtain ⟨w, hw, hc⟩ := ih h
      exact ⟨w, List.mem_cons_of_mem v hw, hc⟩

/-- Values without a vector in them have none together. -/
theorem vectorsAll_eq_nil {vs : List Value} (h : ∀ v ∈ vs, v.vectors = []) :
    vectorsAll vs = [] := by
  induction vs with
  | nil => rfl
  | cons v vs ih =>
    rw [vectorsAll, h v List.mem_cons_self, ih fun w hw => h w (List.mem_cons_of_mem v hw),
      List.nil_append]

/-! ### Replaced vectors -/

section Replaced

variable (f : FlonumVector → Option ℕ → FlonumVector × Option ℕ)

mutual

/-- **The vectors in a value with replaced vectors** are the replacements. -/
theorem vectors_mapVectors :
    ∀ x : Value, (mapVectors f x).vectors = x.vectors.map fun p => f p.1 p.2
  | vector _ _ => rfl
  | list vs => vectorsAll_mapVectorsAll vs
  | tuple vs => vectorsAll_mapVectorsAll vs
  | power b e => by
    rw [mapVectors, vectors, vectors, vectors_mapVectors b, vectors_mapVectors e, List.map_append]
  | null | truth _ | integer _ | ratio _ | double _ | text _ | bytes _ | mapping _ | verdict _
  | settings _ | table .. | source _ | other _ => rfl

theorem vectorsAll_mapVectorsAll :
    ∀ vs : List Value, vectorsAll (mapVectorsAll f vs) = (vectorsAll vs).map fun p => f p.1 p.2
  | [] => rfl
  | v :: vs => by
    rw [mapVectorsAll, vectorsAll, vectorsAll, vectors_mapVectors v, vectorsAll_mapVectorsAll vs,
      List.map_append]

end

variable {f}

mutual

/-- A value stays if every vector in it is its own replacement. -/
theorem mapVectors_eq_self :
    ∀ x : Value, (∀ p ∈ x.vectors, f p.1 p.2 = p) → mapVectors f x = x
  | vector v cell, h => by rw [mapVectors, h (v, cell) List.mem_cons_self]
  | list vs, h => congrArg list (mapVectorsAll_eq_self vs h)
  | tuple vs, h => congrArg tuple (mapVectorsAll_eq_self vs h)
  | power b e, h => by
    rw [mapVectors, mapVectors_eq_self b fun p hp => h p (List.mem_append_left _ hp),
      mapVectors_eq_self e fun p hp => h p (List.mem_append_right _ hp)]
  | null, _ | truth _, _ | integer _, _ | ratio _, _ | double _, _ | text _, _ | bytes _, _
  | mapping _, _ | verdict _, _ | settings _, _ | table .., _ | source _, _ | other _, _ => rfl

theorem mapVectorsAll_eq_self :
    ∀ vs : List Value, (∀ p ∈ vectorsAll vs, f p.1 p.2 = p) → mapVectorsAll f vs = vs
  | [], _ => rfl
  | v :: vs, h => by
    rw [mapVectorsAll, mapVectors_eq_self v fun p hp => h p (List.mem_append_left _ hp),
      mapVectorsAll_eq_self vs fun p hp => h p (List.mem_append_right _ hp)]

end

/-- The cells of a value with replaced vectors. -/
theorem cells_mapVectors (x : Value) :
    (mapVectors f x).cells = x.vectors.filterMap fun p => (f p.1 p.2).2 := by
  rw [cells, vectors_mapVectors, List.filterMap_map]
  rfl

end Replaced

/-! ### Written out, stored and overwritten -/

variable {c n : ℕ} {contents : FlonumVector} {x : Value}

/-- A value that is written out shows no cell. -/
theorem cells_unstored (x : Value) : x.unstored.cells = [] := by
  rw [unstored, cells_mapVectors, List.filterMap_eq_nil_iff]
  exact fun _ _ => rfl

/-- Only cells that are known show. -/
theorem lt_of_mem_cells_known (h : c ∈ (x.known n).cells) : c < n := by
  rw [known, cells_mapVectors, List.mem_filterMap] at h
  obtain ⟨p, -, hp⟩ := h
  exact of_decide_eq_true (Option.filter_eq_some_iff.mp hp).2

/-- In a value that shows no cell there is no cell to be known. -/
theorem known_of_cells_eq_nil (h : x.cells = []) : x.known n = x := by
  refine mapVectors_eq_self x fun p hp => ?_
  have hnone : p.2 = none := List.filterMap_eq_nil_iff.mp h p hp
  rw [hnone]
  exact Prod.ext rfl hnone.symm

/-- An overwritten vector stays in its cell. -/
theorem cells_renewed (c : ℕ) (contents : FlonumVector) (x : Value) :
    (x.renewed c contents).cells = x.cells :=
  cells_mapVectors x

/-- Overwriting a vector makes no vector of another value. -/
theorem exists_eq_of_renewed_eq {y : FlonumVector} {cell : Option ℕ}
    (h : x.renewed c contents = vector y cell) : ∃ z, x = vector z cell := by
  cases x with
  | vector z i => exact ⟨z, congrArg (vector z) (vector.inj h).2⟩
  | _ => exact absurd h (by simp [renewed, mapVectors])

/-- Overwriting a vector does not show in a value that shows other cells only. -/
theorem renewed_of_notMem (h : c ∉ x.cells) : x.renewed c contents = x := by
  refine mapVectors_eq_self x fun p hp => ?_
  have hne : p.2 ≠ some c := fun hc => h (List.mem_filterMap.mpr ⟨p, hp, hc⟩)
  rw [if_neg hne]

end Value

namespace Answer

/-- Replacing the vectors in an answer. -/
theorem toValue_map {f : FlonumVector → Option ℕ → FlonumVector × Option ℕ} (a : Answer) :
    (a.map (Value.mapVectors f)).toValue = a.toValue.mapVectors f := by
  cases a <;> rfl

end Answer

end ExactNumerics
