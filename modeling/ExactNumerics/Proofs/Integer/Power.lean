import ExactNumerics.Integer.Power
import ExactNumerics.Proofs.Integer.Root
import Mathlib.Algebra.Order.Ring.Nat
import Mathlib.Data.Nat.Notation

/-!
# Powers that divide or equal a number

Repeated division counts how often `p` divides. Squaring the divisor first takes out a part of
these factors at once: the square that has been reached is itself a power of `p` that divides, and
counting goes on from the quotient. Neither step asks whether `p` is prime.

A number from two on is the power of some base with a largest exponent, and the exponent determines
the base. So `IsLargestPower` describes one power at most, and whatever finds it finds the same. The
exponents are tried downwards, from the number of binary digits: no exponent of a proper power
reaches it.

## Main definitions

* `IsLargestPower a p` — the power `p` is `a`, and none with a larger exponent is

## Main results

* `pow_maxDividingPower_dvd`, `not_dvd_div_pow_maxDividingPower` — the largest power of `p` that
  divides
* `asPower_pow` — a number is the power that it is written as
* `asPower_base_mul_self_le` — and a proper power has a base up to the square root
* `isLargestPower_asPower` — no other way to write it has a larger exponent
-/

namespace ExactNumerics

variable {p n : ℕ}

/-! ### Repeated division -/

theorem pow_multiplicity_dvd (p n : ℕ) : p ^ multiplicity p n ∣ n := by
  fun_induction multiplicity p n with
  | case1 n h ih =>
    obtain ⟨-, -, hmod⟩ := h
    calc p ^ (multiplicity p (n / p) + 1) = p ^ multiplicity p (n / p) * p := pow_succ _ _
      _ ∣ n / p * p := Nat.mul_dvd_mul_right ih p
      _ = n := Nat.div_mul_cancel (Nat.dvd_of_mod_eq_zero hmod)
  | case2 n h => exact one_dvd n

theorem not_dvd_div_pow_multiplicity (hp : 2 ≤ p) (hn : 0 < n) :
    ¬ p ∣ n / p ^ multiplicity p n := by
  fun_induction multiplicity p n with
  | case1 n h ih =>
    obtain ⟨-, -, hmod⟩ := h
    have hle : p ≤ n := Nat.le_of_dvd hn (Nat.dvd_of_mod_eq_zero hmod)
    rw [pow_succ', ← Nat.div_div_eq_div_mul]
    exact ih (Nat.div_pos hle (by omega))
  | case2 n h =>
    rw [pow_zero, Nat.div_one]
    exact fun hdvd => h ⟨hp, hn, Nat.mod_eq_zero_of_dvd hdvd⟩

/-! ### Repeated squaring of the divisor -/

/-- What is reached by squaring a power of `p` that divides is a power of `p` that divides. -/
theorem squareWhileDividing_spec {q e : ℕ} (hq : q = p ^ e) (hdvd : q ∣ n) :
    (squareWhileDividing n q e).base = p ^ (squareWhileDividing n q e).exponent ∧
      (squareWhileDividing n q e).base ∣ n := by
  fun_induction squareWhileDividing n q e with
  | case1 q e h ih =>
    obtain ⟨-, -, hmod⟩ := h
    refine ih ?_ (Nat.dvd_of_mod_eq_zero hmod)
    rw [hq, ← pow_add, Nat.two_mul]
  | case2 q e h => exact ⟨hq, hdvd⟩

/-- The largest power that divides is what has been reached by squaring, times what repeated
division finds in the quotient. -/
theorem maxDividingPower_spec (hp : 2 ≤ p) (n : ℕ) :
    ∃ q, q ∣ n ∧ p ^ maxDividingPower p n = q * p ^ multiplicity p (n / q) := by
  have hone : p ≠ 1 := by omega
  unfold maxDividingPower
  rw [if_neg hone]
  split
  · rename_i hmod
    have hzero : multiplicity p n = 0 := by
      rw [multiplicity, dif_neg]
      exact fun h => hmod h.2.2
    exact ⟨1, one_dvd n, by rw [Nat.div_one, hzero, one_mul]⟩
  · rename_i hmod
    have hdvd : p ∣ n := Nat.dvd_of_mod_eq_zero (not_not.mp hmod)
    obtain ⟨hbase, hdvd'⟩ := squareWhileDividing_spec (pow_one p).symm hdvd
    exact ⟨_, hdvd', by dsimp only; rw [pow_add, ← hbase]⟩

theorem pow_maxDividingPower_dvd (hp : 2 ≤ p) (n : ℕ) : p ^ maxDividingPower p n ∣ n := by
  obtain ⟨q, hq, heq⟩ := maxDividingPower_spec hp n
  rw [heq]
  calc q * p ^ multiplicity p (n / q) ∣ q * (n / q) :=
        Nat.mul_dvd_mul_left q (pow_multiplicity_dvd p (n / q))
    _ = n := Nat.mul_div_cancel' hq

theorem not_dvd_div_pow_maxDividingPower (hp : 2 ≤ p) (hn : 0 < n) :
    ¬ p ∣ n / p ^ maxDividingPower p n := by
  obtain ⟨q, hq, heq⟩ := maxDividingPower_spec hp n
  rw [heq, ← Nat.div_div_eq_div_mul]
  have hpos : 0 < q := Nat.pos_of_dvd_of_pos hq hn
  exact not_dvd_div_pow_multiplicity hp (Nat.div_pos (Nat.le_of_dvd hn hq) hpos)

/-- A divisor divides at least once. -/
theorem maxDividingPower_pos (hp : 2 ≤ p) (hn : 0 < n) (hdvd : p ∣ n) :
    0 < maxDividingPower p n := by
  by_contra hzero
  refine not_dvd_div_pow_maxDividingPower hp hn ?_
  rwa [Nat.eq_zero_of_not_pos hzero, pow_zero, Nat.div_one]

/-! ### Powers that equal -/

theorem exactRootUpTo_pow (a e : ℕ) :
    (exactRootUpTo a e).base ^ (exactRootUpTo a e).exponent = a := by
  fun_induction exactRootUpTo a e with
  | case1 => exact pow_one a
  | case2 => exact pow_one a
  | case3 e r hroot =>
    have hadd := integerRootRemainder_pow_add a (Nat.succ_pos (e + 1))
    rw [hroot] at hadd
    exact hadd
  | case4 e r rest hroot hrest ih => exact ih

/-- **A number is the power that it is written as.** -/
theorem asPower_pow (a : ℕ) : (asPower a).base ^ (asPower a).exponent = a :=
  exactRootUpTo_pow a _

theorem two_le_asPower_base {a : ℕ} (ha : 2 ≤ a) : 2 ≤ (asPower a).base := by
  by_contra hlt
  have hbase : (asPower a).base ≤ 1 := by omega
  have hle := Nat.pow_le_pow_left hbase (asPower a).exponent
  rw [asPower_pow, Nat.one_pow] at hle
  omega

theorem asPower_base_mul_self_le {a : ℕ} (ha : 2 ≤ a) (he : 1 < (asPower a).exponent) :
    (asPower a).base * (asPower a).base ≤ a := by
  have hbase := two_le_asPower_base ha
  calc (asPower a).base * (asPower a).base = (asPower a).base ^ 2 := (pow_two _).symm
    _ ≤ (asPower a).base ^ (asPower a).exponent := Nat.pow_le_pow_right (by omega) he
    _ = a := asPower_pow a

/-! ### The largest exponent -/

/-- The power is `a`, and no power that is `a` has a larger exponent. There is one for each `a` from
two on, and none for zero and one. -/
structure IsLargestPower (a : ℕ) (p : Power) : Prop where
  /-- The power is the number. -/
  pow_eq : p.base ^ p.exponent = a
  /-- Its exponent is the largest. -/
  le_exponent : ∀ b e, b ^ e = a → e ≤ p.exponent

namespace IsLargestPower

variable {a b e : ℕ} {p q : Power}

/-- A number is its own first power. -/
theorem exponent_pos (h : IsLargestPower a p) : 0 < p.exponent := h.le_exponent a 1 (pow_one a)

/-- **There is one at most.** -/
theorem unique (hp : IsLargestPower a p) (hq : IsLargestPower a q) : p = q := by
  have hexp : p.exponent = q.exponent :=
    le_antisymm (hq.le_exponent _ _ hp.pow_eq) (hp.le_exponent _ _ hq.pow_eq)
  have hbase : p.base = q.base := by
    refine Nat.pow_left_injective hp.exponent_pos.ne' ?_
    show p.base ^ p.exponent = q.base ^ p.exponent
    rw [hp.pow_eq, hexp, hq.pow_eq]
  cases p
  cases q
  simp only [Power.mk.injEq]
  exact ⟨hbase, hexp⟩

/-- Its base is not a perfect power. -/
theorem pow_ne_base (h : IsLargestPower a p) (he : 2 ≤ e) : b ^ e ≠ p.base := by
  intro hb
  have hpow : b ^ (e * p.exponent) = a := by rw [pow_mul, hb, h.pow_eq]
  have hle : e * p.exponent ≤ p.exponent := h.le_exponent _ _ hpow
  have hlt : 1 * p.exponent < e * p.exponent := Nat.mul_lt_mul_of_pos_right he h.exponent_pos
  omega

end IsLargestPower

/-- The exponent of a proper power is less than the number of binary digits. -/
theorem lt_bitLength_of_pow_eq {a b e : ℕ} (ha : 2 ≤ a) (h : b ^ e = a) : e < bitLength a := by
  have hb : 2 ≤ b := by
    by_contra hlt
    have hle : b ^ e ≤ 1 ^ e := Nat.pow_le_pow_left (by omega) e
    rw [h, Nat.one_pow] at hle
    omega
  refine (Nat.pow_lt_pow_iff_right (by decide : 1 < 2)).mp ?_
  calc 2 ^ e ≤ b ^ e := Nat.pow_le_pow_left hb e
    _ = a := h
    _ < 2 ^ bitLength a := lt_two_pow_bitLength a

/-- Trying exponents downwards passes over no exponent of an exact power. -/
theorem le_exactRootUpTo_exponent {a b e top : ℕ} (h : b ^ e = a) (he : e ≤ top) :
    e ≤ (exactRootUpTo a top).exponent := by
  fun_induction exactRootUpTo a top with
  | case1 => omega
  | case2 => exact he
  | case3 top r hroot => exact he
  | case4 top r rest hroot hrest ih =>
    have hne : e ≠ top + 2 := by
      rintro rfl
      have hzero := (integerRootRemainder_snd_eq_zero_iff (Nat.succ_pos (top + 1))).mpr ⟨b, h⟩
      rw [hroot] at hzero
      exact hrest hzero
    exact ih (by omega)

/-- **The exponent that is found is the largest.** -/
theorem isLargestPower_asPower {a : ℕ} (ha : 2 ≤ a) : IsLargestPower a (asPower a) where
  pow_eq := asPower_pow a
  le_exponent _ _ h := le_exactRootUpTo_exponent h (lt_bitLength_of_pow_eq ha h).le

end ExactNumerics
