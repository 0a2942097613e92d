import ExactNumerics.Catalogue.Factors
import ExactNumerics.Proofs.Factor.QuadraticResidue
import ExactNumerics.Proofs.Value.Operand

/-!
# The Legendre symbol

The symbol is computed from a single power, and whatever this power is other than zero or one, the
answer is minus one. That nothing is lost by not looking closer is Euler's criterion: in the field
of `p` elements the power is zero, one or minus one, so as a residue there is only `p - 1` left.

Everything else holds because the symbol is a character of the residues. It is multiplicative, and
it sums to zero over all residues, since there is one that is not a square.

## Main results

* `legendre_eq_zero_iff`, `legendre_eq_one_iff`, `legendre_eq_neg_one_iff` — its three values
* `modularPower_half` — the values of the power
* `legendre_congr`, `legendre_mul` — it is a multiplicative function of the residue
* `sum_legendre` — there are as many squares as others
* `legendre_character` — the symbol, and the operation
-/

namespace ExactNumerics

section Symbol

variable {p : ℕ} [hp : Fact p.Prime] {a b : ℕ}

/-! ### The values -/

theorem legendre_eq_zero_iff (hodd : p ≠ 2) : legendre a p = 0 ↔ p ∣ a := by
  rw [legendre_eq_legendreSym p hodd, legendreSym.eq_zero_iff, Int.cast_natCast,
    ZMod.natCast_eq_zero_iff]

theorem legendre_eq_one_iff (hodd : p ≠ 2) :
    legendre a p = 1 ↔ ¬ p ∣ a ∧ SquareModulo a p := by
  rw [legendre_eq_legendreSym p hodd, squareModulo_iff_isSquare]
  by_cases ha : ((a : ℤ) : ZMod p) = 0
  · have hdvd : p ∣ a := by rwa [Int.cast_natCast, ZMod.natCast_eq_zero_iff] at ha
    rw [(legendreSym.eq_zero_iff p a).mpr ha]
    simp [hdvd]
  · have hndvd : ¬ p ∣ a := by rwa [Int.cast_natCast, ZMod.natCast_eq_zero_iff] at ha
    rw [legendreSym.eq_one_iff p ha, and_iff_right hndvd]

theorem legendre_eq_neg_one_iff (hodd : p ≠ 2) : legendre a p = -1 ↔ ¬ SquareModulo a p := by
  rw [legendre_eq_legendreSym p hodd, legendreSym.eq_neg_one_iff, squareModulo_iff_isSquare]

/-- A residue that is minus one in the field. -/
theorem eq_pred_of_natCast_eq_neg_one {v : ℕ} (hlt : v < p) (hv : (v : ZMod p) = -1) :
    v = p - 1 := by
  have hdvd : p ∣ v + 1 := by
    rw [← ZMod.natCast_eq_zero_iff, Nat.cast_add, hv, Nat.cast_one, neg_add_cancel]
  have hle : p ≤ v + 1 := Nat.le_of_dvd v.succ_pos hdvd
  omega

/-- **Euler's criterion**: the power takes three values. -/
theorem modularPower_half (hodd : p ≠ 2) (a : ℕ) :
    modularPower a ((p - 1) / 2) p = 0 ∨ modularPower a ((p - 1) / 2) p = 1 ∨
      modularPower a ((p - 1) / 2) p = p - 1 := by
  by_cases hzero : modularPower a ((p - 1) / 2) p = 0
  · exact .inl hzero
  by_cases hone : modularPower a ((p - 1) / 2) p = 1
  · exact .inr (.inl hone)
  -- the answer is minus one now, and it is the power in the field
  have hsymbol : legendreSym p a = -1 := by
    rw [← legendre_eq_legendreSym p hodd, legendre]
    simp only [hzero, hone, if_false]
  have hlt : modularPower a ((p - 1) / 2) p < p := by
    rw [modularPower_natCast]
    exact Nat.mod_lt _ hp.out.pos
  have hpower := natCast_modularPower_half p hodd a
  rw [hsymbol, Int.cast_neg, Int.cast_one] at hpower
  exact .inr (.inr (eq_pred_of_natCast_eq_neg_one hlt hpower))

/-! ### The character -/

omit hp in
/-- The symbol of a number is the one of its residue. -/
theorem legendre_congr (h : a ≡ b [MOD p]) : legendre a p = legendre b p := by
  have hpow : a ^ ((p - 1) / 2) % p = b ^ ((p - 1) / 2) % p := h.pow _
  simp only [legendre, modularPower_natCast, hpow]

theorem legendre_mul (hodd : p ≠ 2) (a b : ℕ) :
    legendre (a * b) p = legendre a p * legendre b p := by
  rw [legendre_eq_legendreSym p hodd (a * b), legendre_eq_legendreSym p hodd a,
    legendre_eq_legendreSym p hodd b, Nat.cast_mul, legendreSym.mul]

/-- **The symbols of all residues sum to zero.** -/
theorem sum_legendre (hodd : p ≠ 2) : ∑ c ∈ Finset.range p, legendre c p = 0 := by
  have hchar : ringChar (ZMod p) ≠ 2 := by rwa [ZMod.ringChar_zmod_n]
  rw [← quadraticChar_sum_zero hchar]
  refine Finset.sum_bij' (fun c _ => (c : ZMod p)) (fun z _ => z.val) ?_ ?_ ?_ ?_ ?_
  · intro c _
    exact Finset.mem_univ _
  · intro z _
    exact Finset.mem_range.mpr (ZMod.val_lt z)
  · intro c hc
    exact ZMod.val_cast_of_lt (Finset.mem_range.mp hc)
  · intro z _
    exact ZMod.natCast_zmod_val z
  · intro c _
    rw [legendre_eq_legendreSym p hodd, legendreSym, Int.cast_natCast]

end Symbol

/-! ### The operation -/

variable {p : ℕ}

/-- Odd primes pass the check. -/
theorem Catalogue.legendreValue_eq (hp : p.Prime) (hodd : p ≠ 2) (a : ℕ) :
    Catalogue.legendreValue (.integer a) (.integer p) = .ok (.integer (legendre a p)) := by
  have htwo := hp.two_le
  have hmod := hp.eq_two_or_odd.resolve_left hodd
  have hsymbol : checkedLegendre a p = .ok (legendre a p) := by
    have hnot : ¬ (p < 3 ∨ p % 2 = 0) := by omega
    simp [checkedLegendre, hnot]
  rw [legendreValue, Value.checkNatural_natCast, ok_bind, Value.checkPositive_natCast _ _ hp.pos,
    ok_bind, hsymbol]
  rfl

/-- **The Legendre symbol over an odd prime.** It is zero on the multiples of the prime, one on the
nonzero squares and minus one on all others; so if the power that is computed is neither zero nor
one, it is the largest residue. It depends on the residue alone, it is multiplicative, and it sums
to zero over all residues. -/
theorem legendre_character (hp : p.Prime) (hodd : p ≠ 2) (a b : ℕ) :
    Catalogue.legendreValue (.integer a) (.integer p) = .ok (.integer (legendre a p)) ∧
      (legendre a p = 0 ↔ p ∣ a) ∧
      (legendre a p = 1 ↔ ¬ p ∣ a ∧ ∃ x : ℤ, x * x ≡ a [ZMOD p]) ∧
      (legendre a p = -1 ↔ ¬ ∃ x : ℤ, x * x ≡ a [ZMOD p]) ∧
      (modularPower a ((p - 1) / 2) p = 0 ∨ modularPower a ((p - 1) / 2) p = 1 ∨
        modularPower a ((p - 1) / 2) p = p - 1) ∧
      legendre (a % p) p = legendre a p ∧
      legendre (a * b) p = legendre a p * legendre b p ∧
      ∑ c ∈ Finset.range p, legendre c p = 0 := by
  have : Fact p.Prime := ⟨hp⟩
  exact ⟨Catalogue.legendreValue_eq hp hodd a, legendre_eq_zero_iff hodd, legendre_eq_one_iff hodd,
    legendre_eq_neg_one_iff hodd, modularPower_half hodd a, legendre_congr (Nat.mod_modEq a p),
    legendre_mul hodd a b, sum_legendre hodd⟩

/-- Modulo seven, neither three nor five is a square, but their product is. -/
theorem legendre_character_seven : Nat.Prime 7 ∧ 7 ≠ 2 ∧ legendre 3 7 = -1 ∧ legendre 5 7 = -1 ∧
    legendre (3 * 5) 7 = 1 ∧ (¬ ∃ x : ℤ, x * x ≡ 3 [ZMOD 7]) ∧
      ∑ c ∈ Finset.range 7, legendre c 7 = 0 := by
  obtain ⟨-, -, -, hnonsquare, -, -, hmul, hsum⟩ :=
    legendre_character (p := 7) (by decide) (by decide) 3 5
  have hthree : legendre 3 7 = -1 := by
    simp only [legendre, modularPower_natCast]
    decide
  have hfive : legendre 5 7 = -1 := by
    simp only [legendre, modularPower_natCast]
    decide
  rw [hthree, hfive] at hmul
  exact ⟨by decide, by decide, hthree, hfive, hmul, hnonsquare.mp hthree, hsum⟩

end ExactNumerics
