import ExactNumerics.Catalogue.Integers
import ExactNumerics.Proofs.Integer.Power
import ExactNumerics.Proofs.Loop
import ExactNumerics.Proofs.Value.Operand
import Mathlib.Data.Nat.Log

/-!
# Multiplicities

How often `p` divides `n` is found by dividing for as long as there is no remainder, or by squaring
the divisor for as long as the square divides and dividing the quotient after that. The two find the
same number for every `p` from two on. It need not be prime: all that is used is that the powers of
`p` that divide are those up to the multiplicity (`IsMultiplicity.pow_dvd_iff`).

This also says how far the squaring goes. After `k` rounds the divisor is `p ^ 2 ^ k`, so if `p`
divides `m` times, the last square that divides is the one for the largest power of two up to `m`.
From there on the quotient is divided `m - 2 ^ k` times, which is less than `2 ^ k`, and nothing is
lost in between.

Both recursions ask for more than for a remainder of zero, so that they end for all arguments. For a
divisor from two on and a positive number, the loops that ask for nothing else end as well, and in
the same state.

## Main definitions

* `IsMultiplicity p n m` — the divisor `p` divides `n` exactly `m` times
* `divideOnce`, `squareOnce` — one round of each of the loops

## Main results

* `stopsAfter_multiplicity`, `stopsAfter_squareWhileDividing` — how many rounds the loops take
* `isMultiplicity_maxDividingPower` — repeated squaring finds the multiplicity
* `maxDividingPower_exact` — both ways, as loops and as operations
-/

namespace ExactNumerics

variable {p n m k q e : ℕ}

/-! ### Multiplicities -/

/-- The divisor `p` divides `n` exactly `m` times. -/
structure IsMultiplicity (p n m : ℕ) : Prop where
  /-- The power divides. -/
  pow_dvd : p ^ m ∣ n
  /-- The next one does not. -/
  not_pow_succ_dvd : ¬ p ^ (m + 1) ∣ n

namespace IsMultiplicity

/-- The powers that divide are those up to the multiplicity. -/
theorem pow_dvd_iff (h : IsMultiplicity p n m) : p ^ k ∣ n ↔ k ≤ m := by
  constructor
  · intro hdvd
    by_contra hlt
    exact h.not_pow_succ_dvd ((pow_dvd_pow p (by omega)).trans hdvd)
  · intro hle
    exact (pow_dvd_pow p hle).trans h.pow_dvd

/-- **There is one at most.** -/
theorem unique (h : IsMultiplicity p n m) (h' : IsMultiplicity p n k) : k = m :=
  le_antisymm (h.pow_dvd_iff.mp h'.pow_dvd) (h'.pow_dvd_iff.mp h.pow_dvd)

/-- A power that divides, and leaves a quotient that is not divisible any more. -/
theorem of_not_dvd_div (hdvd : p ^ m ∣ n) (hquot : ¬ p ∣ n / p ^ m) : IsMultiplicity p n m where
  pow_dvd := hdvd
  not_pow_succ_dvd := by
    intro hsucc
    rw [pow_succ] at hsucc
    exact hquot ((Nat.dvd_div_iff_mul_dvd hdvd).mpr hsucc)

end IsMultiplicity

theorem isMultiplicity_multiplicity (hp : 2 ≤ p) (hn : 0 < n) :
    IsMultiplicity p n (multiplicity p n) :=
  .of_not_dvd_div (pow_multiplicity_dvd p n) (not_dvd_div_pow_multiplicity hp hn)

/-- **Repeated squaring finds the multiplicity.** -/
theorem isMultiplicity_maxDividingPower (hp : 2 ≤ p) (hn : 0 < n) :
    IsMultiplicity p n (maxDividingPower p n) :=
  .of_not_dvd_div (pow_maxDividingPower_dvd hp n) (not_dvd_div_pow_maxDividingPower hp hn)

theorem maxDividingPower_eq_multiplicity (hp : 2 ≤ p) (hn : 0 < n) :
    maxDividingPower p n = multiplicity p n :=
  (isMultiplicity_multiplicity hp hn).unique (isMultiplicity_maxDividingPower hp hn)

/-! ### The loops -/

/-- One round of repeated division, of the quotient and the number of divisions so far. -/
def divideOnce (p : ℕ) (s : ℕ × ℕ) : ℕ × ℕ := (s.1 / p, s.2 + 1)

/-- One round of repeated squaring, of the divisor as a power. -/
def squareOnce (s : Power) : Power := ⟨s.base * s.base, 2 * s.exponent⟩

/-- **Repeated division ends** after as many rounds as the divisor divides. -/
theorem stopsAfter_multiplicity (hp : 2 ≤ p) (hn : 0 < n) (c : ℕ) :
    StopsAfter (fun s : ℕ × ℕ => s.1 % p = 0) (divideOnce p) (n, c) (multiplicity p n)
      (n / p ^ multiplicity p n, c + multiplicity p n) := by
  fun_induction multiplicity p n generalizing c with
  | case1 n h ih =>
    obtain ⟨-, -, hmod⟩ := h
    have hle : p ≤ n := Nat.le_of_dvd hn (Nat.dvd_of_mod_eq_zero hmod)
    have hrest := ih (Nat.div_pos hle (by omega)) (c + 1)
    rw [Nat.div_div_eq_div_mul, ← pow_succ', Nat.add_right_comm] at hrest
    exact hrest.round hmod
  | case2 n h =>
    rw [pow_zero, Nat.div_one]
    exact stopsAfter_zero fun hmod => h ⟨hp, hn, hmod⟩

/-- Repeated squaring ends. -/
theorem exists_stopsAfter_squareWhileDividing (hq : 1 < q) (hn : 0 < n) :
    ∃ k, StopsAfter (fun s : Power => n % (s.base * s.base) = 0) squareOnce ⟨q, e⟩ k
      (squareWhileDividing n q e) := by
  fun_induction squareWhileDividing n q e with
  | case1 q e h ih =>
    obtain ⟨-, -, hmod⟩ := h
    obtain ⟨k, hk⟩ := ih (hq.trans_le (Nat.le_mul_self q))
    exact ⟨k + 1, hk.round hmod⟩
  | case2 q e h => exact ⟨0, stopsAfter_zero fun hmod => h ⟨hq, hn, hmod⟩⟩

/-- After some rounds, the exponent is a power of two. -/
theorem iterate_squareOnce (p k : ℕ) : squareOnce^[k] ⟨p, 1⟩ = ⟨p ^ 2 ^ k, 2 ^ k⟩ := by
  induction k with
  | zero => simp
  | succ k ih =>
    rw [Function.iterate_succ_apply', ih, squareOnce]
    simp only [Power.mk.injEq]
    constructor
    · rw [← pow_add, pow_succ, Nat.mul_two]
    · rw [pow_succ, Nat.mul_comm]

/-- The test of a round is whether the exponent after it is at most the multiplicity. -/
theorem IsMultiplicity.mod_square_eq_zero_iff (h : IsMultiplicity p n m) :
    n % (p ^ 2 ^ k * p ^ 2 ^ k) = 0 ↔ 2 ^ (k + 1) ≤ m := by
  rw [← pow_add, ← Nat.mul_two, ← pow_succ, ← Nat.dvd_iff_mod_eq_zero, h.pow_dvd_iff]

/-- So the rounds go up to the largest power of two that is at most the multiplicity. -/
theorem IsMultiplicity.stopsAfter_squareOnce (h : IsMultiplicity p n m) (hm : 0 < m) :
    StopsAfter (fun s : Power => n % (s.base * s.base) = 0) squareOnce ⟨p, 1⟩ (Nat.log 2 m)
      ⟨p ^ 2 ^ Nat.log 2 m, 2 ^ Nat.log 2 m⟩ where
  holds := by
    intro i hi
    rw [iterate_squareOnce]
    exact h.mod_square_eq_zero_iff.mpr (Nat.pow_le_of_le_log hm.ne' hi)
  fails := by
    intro hmod
    have hlt : m < 2 ^ (Nat.log 2 m + 1) := Nat.lt_pow_succ_log_self Nat.one_lt_two m
    exact absurd (h.mod_square_eq_zero_iff.mp hmod) (by omega)
  iterate := iterate_squareOnce p _

/-- **Repeated squaring ends** there. -/
theorem stopsAfter_squareWhileDividing (hp : 2 ≤ p) (hn : 0 < n) (h : IsMultiplicity p n m)
    (hm : 0 < m) :
    StopsAfter (fun s : Power => n % (s.base * s.base) = 0) squareOnce ⟨p, 1⟩ (Nat.log 2 m)
        (squareWhileDividing n p 1) ∧
      squareWhileDividing n p 1 = ⟨p ^ 2 ^ Nat.log 2 m, 2 ^ Nat.log 2 m⟩ := by
  obtain ⟨k, hk⟩ := exists_stopsAfter_squareWhileDividing (e := 1) hp hn
  have hrun := h.stopsAfter_squareOnce hm
  have hstate := (hk.unique hrun).2
  exact ⟨hstate ▸ hrun, hstate⟩

/-! ### The operations -/

namespace Catalogue

/-- On positive numbers, the operations are their rules. -/
theorem multiplicityOf_natCast (rule : ℕ → ℕ → Except Failure ℕ) (hp : 0 < p) (hn : 0 < n)
    (h : rule p n = .ok m) :
    multiplicityOf rule (.integer p) (.integer n) = .ok (.integer m) := by
  rw [multiplicityOf, Value.checkPositive_natCast _ _ hp, ok_bind,
    Value.checkPositive_natCast _ _ hn, ok_bind, h]
  rfl

end Catalogue

/-- **Both ways find the multiplicity.** For every divisor from two on, prime or not, and every
positive number, squaring the divisor and dividing find the one `m` for which the power divides and
the next one does not, and so do the operations. The loop that divides ends after `m` rounds, and
the one that squares after as many rounds as there are doublings from one up to `m`. -/
theorem maxDividingPower_exact (hp : 2 ≤ p) (hn : 1 ≤ n) :
    ∃ m, maxDividingPower p n = m ∧ multiplicity p n = m ∧
      IsMultiplicity p n m ∧ (∀ k, IsMultiplicity p n k → k = m) ∧
      Catalogue.multiplicityOf (fun p n => .ok (maxDividingPower p n)) (.integer p) (.integer n) =
        .ok (.integer m) ∧
      Catalogue.multiplicityOf Catalogue.checkedMultiplicity (.integer p) (.integer n) =
        .ok (.integer m) ∧
      StopsAfter (fun s : ℕ × ℕ => s.1 % p = 0) (divideOnce p) (n, 0) m (n / p ^ m, m) ∧
      (p ∣ n →
        StopsAfter (fun s : Power => n % (s.base * s.base) = 0) squareOnce ⟨p, 1⟩ (Nat.log 2 m)
            (squareWhileDividing n p 1) ∧
          squareWhileDividing n p 1 = ⟨p ^ 2 ^ Nat.log 2 m, 2 ^ Nat.log 2 m⟩) := by
  have hm : IsMultiplicity p n (maxDividingPower p n) := isMultiplicity_maxDividingPower hp hn
  have heq : multiplicity p n = maxDividingPower p n :=
    (maxDividingPower_eq_multiplicity hp hn).symm
  have hchecked : Catalogue.checkedMultiplicity p n = .ok (maxDividingPower p n) := by
    rw [Catalogue.checkedMultiplicity, if_neg (by omega), heq]
  have hdivide := stopsAfter_multiplicity hp hn 0
  rw [heq, Nat.zero_add] at hdivide
  refine ⟨_, rfl, heq, hm, fun k hk => hm.unique hk, ?_, ?_, hdivide, fun hdvd => ?_⟩
  · exact Catalogue.multiplicityOf_natCast _ (by omega) hn rfl
  · exact Catalogue.multiplicityOf_natCast _ (by omega) hn hchecked
  · exact stopsAfter_squareWhileDividing hp hn hm (maxDividingPower_pos hp hn hdvd)

/-- Six divides the seventh power of twelve seven times. The squaring stops at the fourth power,
and the remaining three are found by division. -/
theorem maxDividingPower_exact_twelve_pow_seven : 2 ≤ 6 ∧ 1 ≤ 12 ^ 7 ∧ 6 ∣ 12 ^ 7 ∧
    maxDividingPower 6 (12 ^ 7) = 7 ∧ multiplicity 6 (12 ^ 7) = 7 ∧
      squareWhileDividing (12 ^ 7) 6 1 = ⟨6 ^ 4, 4⟩ := by
  obtain ⟨m, hmax, heq, -, hunique, -, -, -, hsquare⟩ :=
    maxDividingPower_exact (p := 6) (n := 12 ^ 7) (by decide) (by decide)
  obtain rfl : 7 = m := hunique 7 ⟨by decide, by decide⟩
  exact ⟨by decide, by decide, by decide, hmax, heq, (hsquare (by decide)).2⟩

end ExactNumerics
