import ExactNumerics.Integer.Residue

/-!
# Systems of congruences

## Main definitions

* `positiveModuli`: the moduli as positive numbers, or the first that is not one.
* `solveCongruences residues moduli`: the least natural number with the given residues, when the
  moduli are pairwise coprime.
-/

namespace ExactNumerics

/-- The integers as positive numbers, or the failure of the first that is not positive. -/
def positiveModuli (moduli : List Int) : Except Failure (List Nat) :=
  moduli.mapM fun n =>
    if n < 0 then .error (.negative "solve_chinese" "modulus" n)
    else if n = 0 then .error (.notPositive "solve_chinese" "modulus")
    else .ok n.toNat

/-- The sum over the congruences of residue times cofactor times the cofactor's inverse. -/
def congruenceSum (product : Nat) (moduli : List Nat) :
    List (Int × Nat) → Except Failure Int
  | [] => .ok 0
  | (a, n) :: rest =>
    let cofactor := product / n
    match modularInverse? cofactor n with
    | none => .error (.sharedFactor n moduli)
    | some d => do return a * cofactor * d + (← congruenceSum product moduli rest)

/-- The `x` in `[0, n₁ * n₂ * …)` that is congruent to each residue modulo its modulus. -/
def solveCongruences (residues moduli : List Int) : Except Failure Nat := do
  let ns ← positiveModuli moduli
  if residues.length ≠ ns.length then throw (.unpairedResidues residues.length ns.length)
  if ns.isEmpty then throw .noModulus
  let product := ns.foldl (· * ·) 1
  let total ← congruenceSum product ns (residues.zip ns)
  return residue total product

end ExactNumerics
