import Mathlib.Data.Nat.Factorization.Induction
import Mathlib.Data.ZMod.QuotientRing
import Mathlib.NumberTheory.Multiplicity
import Mathlib.Tactic.LinearCombination
import Mathlib.Tactic.Ring

/-!
# Squares modulo a number

An integer is a square modulo a product of coprime numbers if it is one modulo each of them, so it
is enough to look at powers of primes. There one condition on the first few powers decides all of
them, since a root can be lifted from one power to the next: for a root `x` of `a` modulo `q ^ k`
one looks for a `t` such that the square of `x + t * q ^ k` is `a` modulo `q ^ (k + 1)`. That is a
linear condition on `t` with the coefficient `2 * x`. For an odd prime that does not divide `a` the
coefficient is invertible. For two it is not, and the lift adds a multiple of half of the power
instead; that works from eight on, and one is a root of every `a` that is one modulo eight.

## Main definitions

* `SquareModulo a n` — the integer `a` is a square modulo `n`

## Main results

* `squareModulo_odd_prime_pow` — modulo the powers of an odd prime
* `squareModulo_two_pow`, `SquareModulo.modEq_one` — modulo the powers of two
* `SquareModulo.mul`, `squareModulo_of_prime_pow` — from the powers of primes to all numbers
-/

namespace ExactNumerics

/-- The integer `a` is a square modulo `n`. -/
def SquareModulo (a : ℤ) (n : ℕ) : Prop := ∃ x : ℤ, x * x ≡ a [ZMOD n]

variable {a : ℤ} {m n p : ℕ}

theorem squareModulo_iff_isSquare : SquareModulo a n ↔ IsSquare (a : ZMod n) := by
  constructor
  · rintro ⟨x, hx⟩
    refine ⟨x, ?_⟩
    rw [← Int.cast_mul]
    exact ((ZMod.intCast_eq_intCast_iff _ _ n).mpr hx).symm
  · rintro ⟨z, hz⟩
    obtain ⟨x, rfl⟩ := ZMod.intCast_surjective z
    refine ⟨x, (ZMod.intCast_eq_intCast_iff _ _ n).mp ?_⟩
    rw [hz, Int.cast_mul]

theorem SquareModulo.of_dvd (h : SquareModulo a n) (hdvd : m ∣ n) : SquareModulo a m := by
  obtain ⟨x, hx⟩ := h
  exact ⟨x, hx.of_dvd (Int.natCast_dvd_natCast.mpr hdvd)⟩

theorem squareModulo_one (a : ℤ) : SquareModulo a 1 := ⟨0, Int.modEq_one⟩

/-- One is a root of every integer that is congruent to one. -/
theorem squareModulo_of_modEq_one (h : a ≡ 1 [ZMOD n]) : SquareModulo a n :=
  ⟨1, (one_mul (1 : ℤ)).symm ▸ h.symm⟩

/-- Modulo two everything is its own square. -/
theorem squareModulo_two (a : ℤ) : SquareModulo a 2 := by
  refine ⟨a, Int.modEq_iff_dvd.mpr ?_⟩
  have h : a - a * a = -(a * (a - 1)) := by ring
  rw [h, dvd_neg]
  exact (Int.even_mul_pred_self a).two_dvd

/-- **Coprime moduli.** Roots modulo each of them make a root modulo the product. -/
theorem SquareModulo.mul (hm : SquareModulo a m) (hn : SquareModulo a n) (hcop : m.Coprime n) :
    SquareModulo a (m * n) := by
  rw [squareModulo_iff_isSquare] at *
  obtain ⟨x, hx⟩ := hm
  obtain ⟨y, hy⟩ := hn
  have hpair : IsSquare (a : ZMod m × ZMod n) := ⟨(x, y), Prod.ext hx hy⟩
  have hproduct := hpair.map (ZMod.chineseRemainder hcop).symm
  rwa [map_intCast] at hproduct

/-- An odd square is one modulo eight, and so modulo the divisors of eight. -/
theorem SquareModulo.modEq_one (h : SquareModulo a m) (h2 : 2 ∣ m) (h8 : m ∣ 8)
    (hodd : a % 2 = 1) : a ≡ 1 [ZMOD m] := by
  obtain ⟨x, hx⟩ := h
  have hroot : Odd (x * x) := by
    have hmod : x * x % 2 = a % 2 := hx.of_dvd (Int.natCast_dvd_natCast.mpr h2)
    exact Int.odd_iff.mpr (hmod.trans hodd)
  have hone : x * x ≡ 1 [ZMOD 8] := by
    rw [← sq]
    exact (Int.modEq_iff_dvd.mpr (Int.eight_dvd_sq_sub_one_of_odd (Int.odd_mul.mp hroot).1)).symm
  exact hx.symm.trans (hone.of_dvd (Int.natCast_dvd_natCast.mpr h8))

/-! ### Lifting roots -/

/-- An odd prime: the correction of the root solves a linear congruence. -/
theorem squareModulo_odd_prime_pow (hp : p.Prime) (hodd : p ≠ 2) (hndvd : ¬ (p : ℤ) ∣ a)
    (h : SquareModulo a p) (k : ℕ) : SquareModulo a (p ^ k) := by
  have hprime : Prime (p : ℤ) := Nat.prime_iff_prime_int.mp hp
  induction k with
  | zero => exact pow_zero p ▸ squareModulo_one a
  | succ k ih =>
    cases k with
    | zero => simpa using h
    | succ k =>
      obtain ⟨x, hx⟩ := ih
      push_cast at hx
      obtain ⟨c, hc⟩ := hx.dvd
      -- the prime divides no root, as it does not divide `a`, and it is not two
      have hx0 : ¬ (p : ℤ) ∣ 2 * x := by
        intro hdvd
        rcases hprime.dvd_or_dvd hdvd with h2 | hroot
        · have h2' : p ∣ 2 := Int.natCast_dvd_natCast.mp h2
          exact hodd ((Nat.prime_dvd_prime_iff_eq hp Nat.prime_two).mp h2')
        · refine hndvd ?_
          have heq : a = x * x + p ^ (k + 1) * c := by linear_combination hc
          rw [heq]
          exact dvd_add (hroot.mul_right x) ((dvd_pow_self _ k.succ_ne_zero).mul_right c)
      obtain ⟨u, v, huv⟩ := (hprime.coprime_iff_not_dvd.mpr hx0).symm
      refine ⟨x + u * c * p ^ (k + 1), Int.modEq_iff_dvd.mpr ⟨v * c - p ^ k * (u * c) ^ 2, ?_⟩⟩
      push_cast
      linear_combination hc - p ^ (k + 1) * c * huv

/-- Two: half of the power is added as often as the root is off. -/
theorem squareModulo_two_pow (ha : a ≡ 1 [ZMOD 8]) (k : ℕ) : SquareModulo a (2 ^ k) := by
  have hone : SquareModulo a (2 ^ 3) := squareModulo_of_modEq_one ha
  rcases Nat.lt_or_ge k 3 with hlt | hge
  · exact hone.of_dvd (pow_dvd_pow 2 hlt.le)
  induction k, hge using Nat.le_induction with
  | base => exact hone
  | succ k hk ih =>
    obtain ⟨j, rfl⟩ : ∃ j, k = j + 3 := ⟨k - 3, by omega⟩
    obtain ⟨x, hx⟩ := ih
    push_cast at hx
    obtain ⟨c, hc⟩ := hx.dvd
    -- the root is odd, as `a` is
    obtain ⟨y, hy⟩ : ∃ y, x = 2 * y + 1 := by
      have hodd : x % 2 = 1 := by
        by_contra heven
        obtain ⟨z, rfl⟩ : ∃ z, x = 2 * z := ⟨x / 2, by omega⟩
        have heq : a = 2 * (2 * z * z + 2 ^ (j + 2) * c) := by linear_combination hc
        have : a % 8 = 1 := ha
        omega
      exact ⟨x / 2, by omega⟩
    refine ⟨x + c * 2 ^ (j + 2), Int.modEq_iff_dvd.mpr ⟨-(c * y) - c ^ 2 * 2 ^ j, ?_⟩⟩
    subst hy
    push_cast
    linear_combination hc

/-! ### All numbers -/

/-- **From the powers of primes to all numbers.** -/
theorem squareModulo_of_prime_pow (hn : 0 < n)
    (h : ∀ p k : ℕ, p.Prime → p ^ k ∣ n → SquareModulo a (p ^ k)) : SquareModulo a n := by
  induction n using Nat.recOnPosPrimePosCoprime with
  | prime_pow p k hp _ => exact h p k hp dvd_rfl
  | zero => omega
  | one => exact squareModulo_one a
  | coprime m n hm hn' hcop ihm ihn =>
    refine SquareModulo.mul (ihm (by omega) fun p k hp hdvd => ?_)
      (ihn (by omega) fun p k hp hdvd => ?_) hcop
    · exact h p k hp (hdvd.mul_right n)
    · exact h p k hp (hdvd.mul_left m)

end ExactNumerics
