import ExactNumerics.Proofs.Catalogue
import ExactNumerics.Proofs.Session.Call
import Mathlib.Data.Nat.Notation

/-!
# Operations that overwrite

Four operations overwrite a vector: three that check what they are given, and the unchecked move.
Each of them overwrites the vector that is handed over for its first parameter, and with as many
elements as it has.

## Main definitions

* `Catalogue.overwriters` — the operations that overwrite, each with its first parameter
* `Overwrite.Fits` — new elements that are as many as the old ones

## Main results

* `Catalogue.fits_operand` — an operation overwrites its first operand
-/

namespace ExactNumerics

/-! ### Lengths -/

namespace FlonumVector

variable {v w : FlonumVector}

theorem size_set {i : Int} {x : Binary64} (h : v.set i x = .ok w) : w.size = v.size := by
  obtain ⟨k, -, hk⟩ := bind_eq_ok.mp h
  rw [← Except.ok.inj hk, Array.size_setIfInBounds]

theorem size_fill (x : Binary64) : (v.fill x).size = v.size := Array.size_map

/-- Moving elements replaces one after another. -/
theorem size_move (destStart : ℕ) (origin : Origin) (srcStart srcEnd : ℕ) :
    (v.move destStart origin srcStart srcEnd).size = v.size := by
  rw [move]
  generalize (if srcStart < destStart then _ else _ : List ℕ) = places
  induction places generalizing v with
  | nil => rfl
  | cons i places ih => rw [List.foldl_cons, ih, moveOne, Array.size_setIfInBounds]

theorem size_copyRange {destStart srcStart srcEnd : Int} {origin : Origin}
    (h : v.copyRange destStart origin srcStart srcEnd = .ok w) : w.size = v.size := by
  obtain ⟨-, -, h⟩ := bind_eq_ok.mp h
  obtain ⟨-, -, h⟩ := bind_eq_ok.mp h
  split at h
  · exact absurd h (by simp [bind, Except.bind])
  · rw [← Except.ok.inj h, size_move]

end FlonumVector

/-- New elements for the vector that is a given value, and as many as it has. -/
def Overwrite.Fits (w : Overwrite) (v : Value) : Prop :=
  ∃ x : FlonumVector, v = .vector x w.cell ∧ w.contents.size = x.size

namespace Catalogue

variable {v : Value} {w : Overwrite}

theorem target_eq_ok {x : FlonumVector} {cell : Option ℕ} (h : target v = .ok (x, cell)) :
    v = .vector x cell := by
  unfold target at h
  split at h
  · obtain ⟨rfl, rfl⟩ := Prod.mk.inj (Except.ok.inj h)
    rfl
  · exact absurd h (by simp [Value.wrongType])

theorem fits_setElement {i x : Value} (h : setElement v i x = .ok w) : w.Fits v := by
  simp only [setElement, bind_eq_ok] at h
  obtain ⟨⟨y, cell⟩, hy, d, -, k, -, z, hz, h⟩ := h
  obtain rfl := Except.ok.inj h
  exact ⟨y, target_eq_ok hy, FlonumVector.size_set hz⟩

theorem fits_fillAll {x : Value} (h : fillAll v x = .ok w) : w.Fits v := by
  simp only [fillAll, bind_eq_ok] at h
  obtain ⟨⟨y, cell⟩, hy, d, -, h⟩ := h
  obtain rfl := Except.ok.inj h
  exact ⟨y, target_eq_ok hy, FlonumVector.size_fill d⟩

theorem fits_copyInto {destStart src srcStart srcEnd : Value}
    (h : copyInto v destStart src srcStart srcEnd = .ok w) : w.Fits v := by
  simp only [copyInto, bind_eq_ok] at h
  obtain ⟨d, hd, s, -, ⟨y, cell⟩, hy, source, -, first, -, h⟩ := h
  obtain rfl := target_eq_ok hy
  obtain rfl := Except.ok.inj hd
  split at h
  all_goals
    simp only [bind_eq_ok] at h
    obtain ⟨last, -, -, -, place, -, z, hz, h⟩ := h
    obtain rfl := Except.ok.inj h
    exact ⟨y, rfl, FlonumVector.size_copyRange hz⟩

theorem fits_moveInto {destStart src srcStart srcEnd : Value}
    (h : moveInto v destStart src srcStart srcEnd = .ok w) : w.Fits v := by
  simp only [moveInto, bind_eq_ok] at h
  obtain ⟨⟨y, cell⟩, hy, ⟨s, srcCell⟩, -, h⟩ := h
  split at h
  · split at h
    · obtain rfl := Except.ok.inj h
      exact ⟨y, target_eq_ok hy, FlonumVector.size_move _ _ _ _⟩
    · exact absurd h (by simp [Value.badValue])
  · exact absurd h (by simp [Value.wrongType])

/-! ### The four operations -/

/-- The operations that overwrite a vector, with the name of the parameter for it. -/
def overwriters : List (String × String) :=
  [("flvector_set", "v"), ("flvector_fill", "v"), ("flvector_copy_range", "dest"),
   ("kernel_copy", "dest")]

/-- The values of the parameters are overwritten at the first one. -/
theorem fits_overwriting {p : Parameter} {ps : List Parameter}
    {g : List Value → Except Failure Overwrite} {call : Call} (hp : p.default? = none)
    (hg : ∀ vs, g vs = .ok w → ∃ v rest, vs = v :: rest ∧ w.Fits v)
    (h : (do g (← call.bind (p :: ps))) = .ok w) :
    ∃ v, call.operand p.name = some v ∧ w.Fits v := by
  obtain ⟨vs, hvs, h⟩ := bind_eq_ok.mp h
  obtain ⟨v, rest, rfl, hfits⟩ := hg vs h
  exact ⟨v, Call.operand_of_bind hp hvs, hfits⟩

/-- **An overwriting operation overwrites its first operand**, with as many elements. -/
theorem fits_operand {name : String} {f : Call → Except Failure Overwrite} {call : Call}
    (hf : find? name = some (.overwrite f)) (h : f call = .ok w) :
    ∃ parameter, overwriters.lookup name = some parameter ∧
      ∃ v, call.operand parameter = some v ∧ w.Fits v := by
  have hmem := mem_writing_of_find? hf
  simp only [writing, overwriting, List.mem_cons, Prod.mk.injEq, Operation.overwrite.injEq,
    List.not_mem_nil, or_false] at hmem
  rcases hmem with ⟨rfl, rfl⟩ | ⟨rfl, rfl⟩ | ⟨rfl, rfl⟩ | ⟨rfl, rfl⟩
  · refine ⟨"v", rfl, fits_overwriting rfl (fun vs hvs => ?_) h⟩
    split at hvs
    · exact ⟨_, _, rfl, fits_setElement hvs⟩
    · exact absurd hvs (by simp [Value.wrongType])
  · refine ⟨"v", rfl, fits_overwriting rfl (fun vs hvs => ?_) h⟩
    split at hvs
    · exact ⟨_, _, rfl, fits_fillAll hvs⟩
    · exact absurd hvs (by simp [Value.wrongType])
  · refine ⟨"dest", rfl, fits_overwriting rfl (fun vs hvs => ?_) h⟩
    split at hvs
    · exact ⟨_, _, rfl, fits_copyInto hvs⟩
    · exact absurd hvs (by simp [Value.wrongType])
  · refine ⟨"dest", rfl, fits_overwriting rfl (fun vs hvs => ?_) h⟩
    split at hvs
    · exact ⟨_, _, rfl, fits_moveInto hvs⟩
    · exact absurd hvs (by simp [Value.wrongType])

end Catalogue

end ExactNumerics
