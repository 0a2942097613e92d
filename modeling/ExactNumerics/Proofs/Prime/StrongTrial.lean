import ExactNumerics.Prime.StrongPseudoprime
import ExactNumerics.Proofs.Integer.Residue
import Mathlib.FieldTheory.Finite.Basic

/-!
# What a strong pseudoprime trial decides

Let `n - 1 = 2 ^ ν * m` with `m` odd. A trial of `n` with a witness `a` ends in favour of a prime
exactly when `a` is coprime to `n` and, modulo `n`, either `a ^ m = 1` or one of the squares
`a ^ (m * 2 ^ j)` with `j < ν` is `-1`. That condition, `Fools`, is one on elements of `ZMod n`; it
is all that the later counting has to know about the loop.

For a prime `n` every witness passes: the last square is `1` by Fermat's little theorem, and a
square that is `1` has only the roots `1` and `-1` in a field.

## Main definitions

* `Fools n x` — the trial of `n` with the witness `x` does not find out that `n` is composite

## Main results

* `two_pow_mul_splitTwos`, `splitTwos_odd` — the split of `n - 1`
* `squareUntilOne_cases` — how the squaring can end
* `strongTrial_eq_probablyPrime_iff` — the verdict in favour of a prime
* `strongTrial_of_prime` — a prime is never rejected
-/

namespace ExactNumerics

/-! ### The factors of two -/

theorem two_pow_mul_splitTwos (n : ℕ) : 2 ^ (splitTwos n).1 * (splitTwos n).2 = n := by
  fun_induction splitTwos n with
  | case1 n h ν m heq ih =>
    rw [heq] at ih
    change 2 ^ (ν + 1) * m = n
    rw [pow_succ', mul_assoc, ih]
    omega
  | case2 n => simp

theorem splitTwos_odd {n : ℕ} (hn : 0 < n) : (splitTwos n).2 % 2 = 1 := by
  fun_induction splitTwos n with
  | case1 n h ν m heq ih =>
    rw [heq] at ih
    exact ih (by omega)
  | case2 n h => exact Nat.mod_two_ne_zero.mp fun h0 => h ⟨hn, h0⟩

/-! ### The squaring -/

@[simp] theorem squareUntilOne_one (n ν previous : ℕ) :
    squareUntilOne n ν previous 1 = (previous, 1) := by
  cases ν <;> simp [squareUntilOne]

theorem mod_mul_self_pow (n b j : ℕ) : (b * b % n) ^ 2 ^ j % n = b ^ 2 ^ (j + 1) % n := by
  rw [← Nat.pow_mod, ← sq, ← pow_mul, ← pow_succ']

/-- **How the squaring can end.** From a residue other than `1`, either none of the squares is `1`,
or the last two values are a square that is not `1` and the next one, which is. -/
theorem squareUntilOne_cases {n b : ℕ} (hb : b < n) (h1 : b ≠ 1) (ν previous : ℕ) :
    ((∀ j ≤ ν, b ^ 2 ^ j % n ≠ 1) ∧ (squareUntilOne n ν previous b).2 ≠ 1) ∨
      ∃ j < ν, b ^ 2 ^ j % n ≠ 1 ∧ b ^ 2 ^ (j + 1) % n = 1 ∧
        squareUntilOne n ν previous b = (b ^ 2 ^ j % n, 1) := by
  induction ν generalizing b previous with
  | zero =>
    refine .inl ⟨fun j hj => ?_, h1⟩
    obtain rfl : j = 0 := by omega
    simpa [Nat.mod_eq_of_lt hb] using h1
  | succ ν ih =>
    have hzero : b ^ 2 ^ 0 % n ≠ 1 := by simpa [Nat.mod_eq_of_lt hb] using h1
    rw [squareUntilOne, if_neg h1]
    by_cases hsq : b * b % n = 1
    · refine .inr ⟨0, by omega, hzero, by simpa [sq] using hsq, ?_⟩
      rw [hsq, squareUntilOne_one]
      simp [Nat.mod_eq_of_lt hb]
    · rcases ih (Nat.mod_lt _ (by omega)) hsq b with ⟨hnone, hlast⟩ | ⟨j, hj, hne, hone, heq⟩
      · refine .inl ⟨fun j hj => ?_, hlast⟩
        cases j with
        | zero => exact hzero
        | succ j => rw [← mod_mul_self_pow]; exact hnone j (by omega)
      · rw [mod_mul_self_pow] at hne hone heq
        exact .inr ⟨j + 1, by omega, hne, hone, heq⟩

/-! ### The verdict -/

/-- With `x` as the witness, a trial of `n` does not find out that `n` is composite. -/
def Fools (n : ℕ) (x : ZMod n) : Prop :=
  x ^ (splitTwos (n - 1)).2 = 1 ∨
    ∃ j < (splitTwos (n - 1)).1, x ^ ((splitTwos (n - 1)).2 * 2 ^ j) = -1

theorem natCast_mod_eq_one_iff {n : ℕ} (hn : 1 < n) (b : ℕ) : b % n = 1 ↔ (b : ZMod n) = 1 := by
  have hone : ((1 : ℕ) : ZMod n) = 1 := Nat.cast_one
  rw [← hone, ZMod.natCast_eq_natCast_iff', Nat.mod_eq_of_lt hn]

theorem natCast_mod_eq_pred_iff {n : ℕ} (hn : 1 < n) (b : ℕ) :
    b % n = n - 1 ↔ (b : ZMod n) = -1 := by
  have hpred : ((n - 1 : ℕ) : ZMod n) = -1 := by
    rw [Nat.cast_sub (by omega), ZMod.natCast_self, Nat.cast_one, zero_sub]
  rw [← hpred, ZMod.natCast_eq_natCast_iff', Nat.mod_eq_of_lt (by omega : n - 1 < n)]

/-- The squaring of a residue other than `1` ends in `1` after `-1` exactly when it meets `-1`
before its last square. -/
theorem squareUntilOne_eq_pred_iff {n b : ℕ} (hn : 2 < n) (hb : b < n) (h1 : b ≠ 1)
    (ν previous : ℕ) :
    ((squareUntilOne n ν previous b).2 = 1 ∧ (squareUntilOne n ν previous b).1 = n - 1) ↔
      ∃ j < ν, (b : ZMod n) ^ 2 ^ j = -1 := by
  have hone : ∀ j, b ^ 2 ^ j % n = 1 ↔ (b : ZMod n) ^ 2 ^ j = 1 := fun j => by
    rw [natCast_mod_eq_one_iff (by omega), Nat.cast_pow]
  have hminus : ∀ j, b ^ 2 ^ j % n = n - 1 ↔ (b : ZMod n) ^ 2 ^ j = -1 := fun j => by
    rw [natCast_mod_eq_pred_iff (by omega), Nat.cast_pow]
  have hstay : ∀ {i j}, i ≤ j → (b : ZMod n) ^ 2 ^ i = 1 → (b : ZMod n) ^ 2 ^ j = 1 :=
    fun hij h => orderOf_dvd_iff_pow_eq_one.mp
      ((orderOf_dvd_of_pow_eq_one h).trans (pow_dvd_pow 2 hij))
  have hsq : ∀ {j}, (b : ZMod n) ^ 2 ^ j = -1 → (b : ZMod n) ^ 2 ^ (j + 1) = 1 := fun h => by
    rw [pow_succ, pow_mul, h, neg_one_sq]
  rcases squareUntilOne_cases hb h1 ν previous with ⟨hnone, hlast⟩ | ⟨j, hj, hne, hnext, heq⟩
  · refine ⟨fun h => absurd h.1 hlast, ?_⟩
    rintro ⟨j, hj, hjm⟩
    exact absurd ((hone _).mpr (hsq hjm)) (hnone (j + 1) (by omega))
  · rw [heq]
    refine ⟨fun h => ⟨j, hj, (hminus j).mp h.2⟩, ?_⟩
    rintro ⟨i, -, him⟩
    -- the squares are `1` from the one after `-1` on, and not before, so `i` and `j` agree
    have hij : i = j := by
      rcases lt_trichotomy i j with hlt | rfl | hgt
      · exact absurd ((hone j).mpr (hstay hlt (hsq him))) hne
      · rfl
      · have h1 : (b : ZMod n) ^ 2 ^ i = 1 := hstay hgt ((hone (j + 1)).mp hnext)
        have : Fact (2 < n) := ⟨hn⟩
        exact absurd (him.symm.trans h1) ZMod.neg_one_ne_one
    subst hij
    exact ⟨rfl, (hminus i).mpr him⟩

/-- The trial with a witness that shares no factor with `n`. -/
theorem strongTrial_of_coprime {n a : ℕ} (h : a.Coprime n) :
    strongTrial n a =
      let b := a ^ (splitTwos (n - 1)).2 % n
      let r := squareUntilOne n (splitTwos (n - 1)).1 b b
      if b = 1 then .probablyPrime
      else if r.2 ≠ 1 then .composite
      else if r.1 = n - 1 then .probablyPrime
      else .divisor (Nat.gcd (r.1 + 1) n) := by
  have hg : a.gcd n = 1 := h
  simp only [strongTrial, hg, lt_irrefl, if_false, modularPower_natCast]

/-- The trial with a witness that shares a factor with `n`. -/
theorem strongTrial_of_not_coprime {n a : ℕ} (hn : 0 < n) (h : ¬ a.Coprime n) :
    1 < a.gcd n ∧ strongTrial n a = .divisor (a.gcd n) := by
  have hpos := Nat.gcd_pos_of_pos_right a hn
  have hne : a.gcd n ≠ 1 := h
  have hlt : 1 < a.gcd n := by omega
  exact ⟨hlt, by simp [strongTrial, hlt]⟩

/-- **The verdict in favour of a prime.** -/
theorem strongTrial_eq_probablyPrime_iff {n : ℕ} (hn : 2 < n) (a : ℕ) :
    strongTrial n a = .probablyPrime ↔ a.Coprime n ∧ Fools n a := by
  by_cases hg : a.Coprime n
  swap
  · obtain ⟨-, hv⟩ := strongTrial_of_not_coprime (by omega) hg
    simp [hv, hg]
  have hb : a ^ (splitTwos (n - 1)).2 % n < n := Nat.mod_lt _ (by omega)
  have hone : a ^ (splitTwos (n - 1)).2 % n = 1 ↔ (a : ZMod n) ^ (splitTwos (n - 1)).2 = 1 := by
    rw [natCast_mod_eq_one_iff (by omega), Nat.cast_pow]
  rw [strongTrial_of_coprime hg]
  dsimp only
  split
  · rename_i h1
    exact iff_of_true rfl ⟨hg, .inl (hone.mp h1)⟩
  · rename_i h1
    have hend := squareUntilOne_eq_pred_iff hn hb h1 (splitTwos (n - 1)).1
      (a ^ (splitTwos (n - 1)).2 % n)
    simp only [ZMod.natCast_mod, Nat.cast_pow, ← pow_mul] at hend
    rw [and_iff_right hg, Fools, or_iff_right fun h => h1 (hone.mpr h), ← hend]
    split
    · rename_i hlast
      simp [hlast]
    · rename_i hlast
      rw [not_not] at hlast
      split <;> simp_all

/-! ### Primes -/

/-- In a domain, an element of which a `2 ^ ν`-th power is `1` is `1`, or one of its earlier
squares is `-1`. -/
theorem eq_one_or_exists_pow_eq_neg_one {R : Type*} [CommRing R] [IsDomain R] {y : R} {ν : ℕ}
    (h : y ^ 2 ^ ν = 1) : y = 1 ∨ ∃ j < ν, y ^ 2 ^ j = -1 := by
  induction ν with
  | zero => exact .inl (by simpa using h)
  | succ ν ih =>
    rw [pow_succ, pow_mul, sq_eq_one_iff] at h
    rcases h with h | h
    · rcases ih h with h1 | ⟨j, hj, hjm⟩
      · exact .inl h1
      · exact .inr ⟨j, by omega, hjm⟩
    · exact .inr ⟨ν, by omega, h⟩

/-- Modulo a prime, every element but zero passes the trial. -/
theorem fools_of_prime {n : ℕ} (hn : n.Prime) {x : ZMod n} (hx : x ≠ 0) : Fools n x := by
  have : Fact n.Prime := ⟨hn⟩
  have hlast : (x ^ (splitTwos (n - 1)).2) ^ 2 ^ (splitTwos (n - 1)).1 = 1 := by
    rw [← pow_mul, mul_comm, two_pow_mul_splitTwos, ZMod.pow_card_sub_one_eq_one hx]
  simpa only [Fools, ← pow_mul] using eq_one_or_exists_pow_eq_neg_one hlast

/-- **A prime is never rejected**, whatever witness is drawn. -/
theorem strongTrial_of_prime {n a : ℕ} (hn : n.Prime) (h2 : 2 < n) (ha : 0 < a) (han : a < n) :
    strongTrial n a = .probablyPrime := by
  have hcop : a.Coprime n := (Nat.coprime_of_lt_prime ha.ne' han hn).symm
  refine (strongTrial_eq_probablyPrime_iff h2 a).mpr ⟨hcop, fools_of_prime hn ?_⟩
  rw [Ne, ZMod.natCast_eq_zero_iff]
  exact Nat.not_dvd_of_pos_of_lt ha han

end ExactNumerics
