import ExactNumerics.Integer.Residue
import Mathlib.Data.Int.ModEq
import Mathlib.Tactic.Ring

/-!
# Modular powers

Squaring and multiplying computes the power. The invariant of the digits is the whole statement:
`powerDigits n result base e` stands for `result * base ^ e` modulo `n`, whatever digit is next.

## Main results

* `powerDigits_eq` — the digits
* `modularPower_eq` — the power of an integer
* `modularPower_natCast` — the same for a natural number
-/

namespace ExactNumerics

theorem residue_natCast (a n : ℕ) : residue a n = a % n := by
  rw [residue, ← Int.natCast_mod, Int.toNat_natCast]

/-- The representative of an integer, as an integer. -/
theorem natCast_residue (a : ℤ) {n : ℕ} (hn : 0 < n) : (residue a n : ℤ) = a % n :=
  Int.toNat_of_nonneg (Int.emod_nonneg a (by omega))

/-- **The digits.** A result below the modulus is multiplied by the power of the base. -/
theorem powerDigits_eq (n result base e : ℕ) (h : result % n = result) :
    powerDigits n result base e = result * base ^ e % n := by
  fun_induction powerDigits n result base e with
  | case1 result base => rw [pow_zero, mul_one, h]
  | case2 result base e he ih =>
    have hsq : ∀ k, (base * base % n) ^ k ≡ base ^ (2 * k) [MOD n] := fun k => by
      rw [pow_mul, sq]
      exact (Nat.mod_modEq _ n).pow k
    by_cases hodd : e % 2 = 1
    · simp only [hodd, reduceDIte, reduceIte] at ih ⊢
      rw [ih (Nat.mod_mod _ n)]
      have hexp : e = 2 * (e / 2) + 1 := by omega
      calc result * base % n * (base * base % n) ^ (e / 2) % n
          = result * base * base ^ (2 * (e / 2)) % n :=
            Nat.ModEq.mul (Nat.mod_modEq _ n) (hsq _)
        _ = result * base ^ e % n := by
            rw [mul_assoc, ← pow_succ', ← hexp]
    · simp only [hodd, reduceDIte, reduceIte] at ih ⊢
      rw [ih h]
      have hexp : e = 2 * (e / 2) := by omega
      calc result * (base * base % n) ^ (e / 2) % n
          = result * base ^ (2 * (e / 2)) % n := Nat.ModEq.mul_left result (hsq _)
        _ = result * base ^ e % n := by rw [← hexp]

/-- **Modular powers of natural numbers**, for every modulus. -/
theorem modularPower_natCast (a e n : ℕ) : modularPower a e n = a ^ e % n := by
  rw [modularPower, residue_natCast, powerDigits_eq _ _ _ _ (Nat.mod_mod 1 n)]
  exact ((Nat.mod_modEq 1 n).mul ((Nat.mod_modEq a n).pow e)).trans (by rw [one_mul])

end ExactNumerics
