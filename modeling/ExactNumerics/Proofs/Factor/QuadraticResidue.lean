import ExactNumerics.Factor.Multiplicative
import ExactNumerics.Proofs.Factor.Covered
import ExactNumerics.Proofs.Integer.Residue
import ExactNumerics.Proofs.Integer.Square
import Mathlib.NumberTheory.LegendreSymbol.Basic

/-!
# Quadratic residues

A test of squares modulo `n` looks at the residue of `a` modulo each odd prime divisor once,
whatever its exponent is, and modulo four or eight. What it looks at is `LocallySquare`. It is
enough, since roots can be lifted from these moduli to the powers of primes that divide `n` and
then combined. If `a` is coprime to `n` it is also necessary. Otherwise it is not: modulo an odd
prime that divides `a` the Legendre symbol is zero, and the answer is `false` although zero is a
square.

## Main definitions

* `LocallySquare a n` — what the test looks at

## Main results

* `legendre_eq_legendreSym` — over an odd prime, the symbol is the one of the library
* `LocallySquare.squareModulo`, `locallySquare_of_squareModulo` — what it is worth
* `Search.meets_isQuadraticResidue` — the test, from a contract of the factorization
* `Search.isQuadraticResidue_run` — its answers for covered numbers
-/

namespace ExactNumerics

/-! ### The Legendre symbol -/

/-- The power that is computed, as an element of the field. -/
theorem natCast_modularPower_half (p : ℕ) [hp : Fact p.Prime] (hodd : p ≠ 2) (a : ℕ) :
    (modularPower a ((p - 1) / 2) p : ZMod p) = (legendreSym p a : ZMod p) := by
  have hhalf : (p - 1) / 2 = p / 2 := by
    have := hp.out.eq_two_or_odd.resolve_left hodd
    omega
  rw [modularPower_natCast, hhalf, ZMod.natCast_mod, legendreSym.eq_pow]
  push_cast
  rfl

/-- **The Legendre symbol over an odd prime.** -/
theorem legendre_eq_legendreSym (p : ℕ) [hp : Fact p.Prime] (hodd : p ≠ 2) (a : ℕ) :
    legendre a p = legendreSym p a := by
  have : Fact (2 < p) := ⟨lt_of_le_of_ne hp.out.two_le hodd.symm⟩
  have hpower := natCast_modularPower_half p hodd a
  have hlt : modularPower a ((p - 1) / 2) p < p := by
    rw [modularPower_natCast]
    exact Nat.mod_lt _ hp.out.pos
  have hvalue : legendreSym p a = 0 ∨ legendreSym p a = 1 ∨ legendreSym p a = -1 := by
    by_cases ha : ((a : ℤ) : ZMod p) = 0
    · exact .inl ((legendreSym.eq_zero_iff p a).mpr ha)
    · exact .inr (legendreSym.eq_one_or_neg_one p ha)
  rw [legendre]
  generalize legendreSym p a = s at hpower hvalue
  generalize modularPower a ((p - 1) / 2) p = v at hpower hlt
  have hzero : v = 0 ↔ (s : ZMod p) = 0 := by
    rw [← hpower, ZMod.natCast_eq_zero_iff, Nat.dvd_iff_mod_eq_zero, Nat.mod_eq_of_lt hlt]
  have hone : v = 1 ↔ (s : ZMod p) = 1 := by
    rw [← hpower, ← Nat.cast_one (R := ZMod p), ZMod.natCast_eq_natCast_iff',
      Nat.mod_eq_of_lt hlt, Nat.mod_eq_of_lt hp.out.one_lt]
  simp only [hzero, hone]
  rcases hvalue with rfl | rfl | rfl
  · simp
  · simp
  · simp [ZMod.neg_one_ne_one]

/-- The symbol is one exactly on the nonzero squares. -/
theorem legendre_residue_eq_one_iff {p : ℕ} (hp : p.Prime) (hodd : p ≠ 2) (a : ℤ) :
    legendre (residue a p) p = 1 ↔ ¬ (p : ℤ) ∣ a ∧ SquareModulo a p := by
  have : Fact p.Prime := ⟨hp⟩
  rw [legendre_eq_legendreSym p hodd, natCast_residue a hp.pos, ← legendreSym.mod]
  by_cases ha : (a : ZMod p) = 0
  · have hdvd := (ZMod.intCast_zmod_eq_zero_iff_dvd a p).mp ha
    rw [(legendreSym.eq_zero_iff p a).mpr ha]
    simp [hdvd]
  · have hndvd : ¬ (p : ℤ) ∣ a := fun hdvd => ha ((ZMod.intCast_zmod_eq_zero_iff_dvd a p).mpr hdvd)
    rw [legendreSym.eq_one_iff p ha, squareModulo_iff_isSquare, and_iff_right hndvd]

/-! ### What the test looks at -/

/-- The integer `a` is a nonzero square modulo the odd prime divisors of `n`, and one modulo four
and eight as far as these divide `n`. -/
structure LocallySquare (a : ℤ) (n : ℕ) : Prop where
  /-- Modulo the odd prime divisors. -/
  odd : ∀ p : ℕ, p.Prime → p ≠ 2 → p ∣ n → ¬ (p : ℤ) ∣ a ∧ SquareModulo a p
  /-- Modulo four. -/
  four : 4 ∣ n → a ≡ 1 [ZMOD 4]
  /-- Modulo eight. -/
  eight : 8 ∣ n → a ≡ 1 [ZMOD 8]

variable {a : ℤ} {n : ℕ}

theorem locallySquare_iff :
    LocallySquare a n ↔ (∀ p : ℕ, p.Prime → p ≠ 2 → p ∣ n → ¬ (p : ℤ) ∣ a ∧ SquareModulo a p) ∧
      (4 ∣ n → a % 4 = 1) ∧ (8 ∣ n → a % 8 = 1) :=
  ⟨fun h => ⟨h.odd, h.four, h.eight⟩, fun h => ⟨h.1, h.2.1, h.2.2⟩⟩

/-- **The test is sufficient.** -/
theorem LocallySquare.squareModulo (h : LocallySquare a n) (hn : 0 < n) : SquareModulo a n := by
  refine squareModulo_of_prime_pow hn fun p k hp hdvd => ?_
  by_cases hodd : p = 2
  · subst hodd
    match k, hdvd with
    | 0, _ => exact squareModulo_one a
    | 1, _ => exact squareModulo_two a
    | 2, hdvd => exact squareModulo_of_modEq_one (h.four hdvd)
    | k + 3, hdvd =>
      exact squareModulo_two_pow (h.eight ((pow_dvd_pow 2 (Nat.le_add_left 3 k)).trans hdvd)) _
  · cases k with
    | zero => exact squareModulo_one a
    | succ k =>
      have hpn : p ∣ n := (dvd_pow_self p k.succ_ne_zero).trans hdvd
      obtain ⟨hndvd, hsquare⟩ := h.odd p hp hodd hpn
      exact squareModulo_odd_prime_pow hp hodd hndvd hsquare _

/-- **For coprime arguments the test is necessary.** -/
theorem locallySquare_of_squareModulo (hcop : Int.gcd a n = 1) (h : SquareModulo a n) :
    LocallySquare a n := by
  have hndvd : ∀ p : ℕ, p.Prime → p ∣ n → ¬ (p : ℤ) ∣ a := fun p hp hpn hpa => by
    have hdvd : (p : ℤ) ∣ (Int.gcd a n : ℕ) :=
      Int.dvd_coe_gcd hpa (Int.natCast_dvd_natCast.mpr hpn)
    rw [hcop] at hdvd
    exact hp.one_lt.ne' (Nat.dvd_one.mp (Int.natCast_dvd_natCast.mp hdvd))
  have hodd : 2 ∣ n → a % 2 = 1 := fun h2 => by
    have := hndvd 2 Nat.prime_two h2
    omega
  refine ⟨fun p hp _ hpn => ⟨hndvd p hp hpn, h.of_dvd hpn⟩, fun h4 => ?_, fun h8 => ?_⟩
  · exact (h.of_dvd h4).modEq_one (by decide) (by decide) (hodd (by omega))
  · exact (h.of_dvd h8).modEq_one (by decide) dvd_rfl (hodd (by omega))

/-! ### The test -/

namespace Search

variable {σ : Surroundings} {d : Draws}

/-- The odd primes are looked at one after the other. -/
theorem meets_squares {E : Failure → Draws → Prop} {ps : List ℕ}
    (hps : ∀ p ∈ ps, p.Prime ∧ p ≠ 2) :
    Meets (isQuadraticResidue.squares a ps) σ d
      (fun b d' => d' = d ∧ (b = true ↔ ∀ p ∈ ps, ¬ (p : ℤ) ∣ a ∧ SquareModulo a p)) E := by
  induction ps with
  | nil => exact .pure ⟨rfl, by simp⟩
  | cons p ps ih =>
    obtain ⟨⟨hp, hodd⟩, hrest⟩ := List.forall_mem_cons.mp hps
    have hchecked : checkedLegendre (residue a p) p = .ok (legendre (residue a p) p) := by
      have h2 := hp.two_le
      have hodd' := hp.eq_two_or_odd.resolve_left hodd
      have hnot : ¬ (p < 3 ∨ p % 2 = 0) := by omega
      simp [checkedLegendre, hnot]
    have hsymbol := legendre_residue_eq_one_iff hp hodd a
    rw [isQuadraticResidue.squares, hchecked]
    refine .ite (fun hone => ?_) fun hne => ?_
    · refine (ih hrest).weaken (fun b d' _ h => ⟨h.1, ?_⟩) fun _ _ _ h => h
      rw [h.2, List.forall_mem_cons, and_iff_right (hsymbol.mp hone)]
    · refine .pure ⟨rfl, iff_of_false Bool.false_ne_true fun hall => ?_⟩
      exact hne (hsymbol.mpr (List.forall_mem_cons.mp hall).1)

/-- The odd bases of a prime factorization are the odd prime divisors. -/
theorem mem_oddBases_iff {fs : Factorization} (hfs : IsPrimeFactorization n fs) (p : ℕ) :
    p ∈ (fs.map (·.base)).filter (· ≠ 2) ↔ p.Prime ∧ p ≠ 2 ∧ p ∣ n := by
  rw [List.mem_filter, hfs.mem_bases_iff, decide_eq_true_eq, and_assoc, and_comm (a := p ∣ n)]

/-- What is looked at are the odd prime divisors. -/
theorem meets_primeDivisors_odd {E : Failure → Draws → Prop}
    (hfactor : Meets (factor n) σ d (fun fs _ => IsPrimeFactorization n fs) E) :
    Meets (primeDivisors n) σ d
      (fun ps _ => ∀ p, p ∈ ps.filter (· ≠ 2) ↔ p.Prime ∧ p ≠ 2 ∧ p ∣ n) E :=
  hfactor.bind fun _ _ _ hfs => .pure (mem_oddBases_iff hfs)

/-- **The test**, on top of a factorization with any contract for its failures. -/
theorem meets_isQuadraticResidue {E : Failure → Draws → Prop}
    (hfactor : Meets (factor n) σ d (fun fs _ => IsPrimeFactorization n fs) E) :
    Meets (isQuadraticResidue a n) σ d (fun b _ => b = true ↔ LocallySquare a n) E := by
  refine (meets_primeDivisors_odd hfactor).bind fun ps d' _ hps => ?_
  refine (meets_squares fun p hp => ?_).bind fun b d'' _ hb => ?_
  · obtain ⟨hprime, hodd, -⟩ := (hps p).mp hp
    exact ⟨hprime, hodd⟩
  have hlocal : LocallySquare a n ↔ b = true ∧ (4 ∣ n → a % 4 = 1) ∧ (8 ∣ n → a % 8 = 1) := by
    rw [locallySquare_iff, hb.2]
    simp only [hps, and_imp]
  refine .ite (fun hfalse => .pure ?_) fun htrue => ?_
  · rw [hlocal]
    simp only [Bool.not_eq_true'] at hfalse
    simp [hfalse]
  · simp only [Bool.not_eq_true', Bool.not_eq_false] at htrue
    rw [hlocal, and_iff_right htrue]
    -- one modulo eight is one modulo four
    refine .ite (fun h8 => .pure ?_) fun h8 => .ite (fun h4 => .pure ?_) fun h4 => .pure ?_
    · rw [beq_iff_eq]
      omega
    · rw [beq_iff_eq]
      omega
    · refine iff_of_true rfl ?_
      omega

/-- **The answers for covered numbers.** Whatever is drawn and whatever the settings are, the answer
`true` is right, and for `a` coprime to `n` the answer `false` is right as well. -/
theorem isQuadraticResidue_run (hn : 1 ≤ n) (hlt : n < σ.table.limit) {p p' : Progress} {b : Bool}
    (hrun : (isQuadraticResidue a n).run σ p = (.ok b, p')) :
    (b = true → ∃ x : ℤ, x * x ≡ a [ZMOD n]) ∧
      (Int.gcd a n = 1 → (b = true ↔ ∃ x : ℤ, x * x ≡ a [ZMOD n])) := by
  have hb : b = true ↔ LocallySquare a n :=
    Meets.of_ok (meets_isQuadraticResidue (meets_factor_of_covered hn hlt)) hrun
  refine ⟨fun htrue => (hb.mp htrue).squareModulo hn, fun hcop => ?_⟩
  exact hb.trans ⟨fun h => h.squareModulo hn, locallySquare_of_squareModulo hcop⟩

/-- Minus 31 is a square modulo 56, namely the one of five. -/
theorem isQuadraticResidue_run_fifty_six :
    1 ≤ 56 ∧ 56 < (PrimeTable.fresh 57 (by decide)).limit ∧ Int.gcd (-31) (56 : ℕ) = 1 ∧
      ∃ p', (isQuadraticResidue (-31) 56).run ⟨{}, PrimeTable.fresh 57 (by decide), none⟩
        ⟨Draws.ofScript [], {}⟩ = (.ok true, p') := by
  have hreturns : Returns (isQuadraticResidue (-31) 56) ⟨{}, PrimeTable.fresh 57 (by decide), none⟩
      (Draws.ofScript []) fun b => b = true ↔ LocallySquare (-31) 56 := by
    refine meets_isQuadraticResidue ?_
    refine (meets_factor (σ := ⟨{}, PrimeTable.fresh 57 (by decide), none⟩)
      Settings.hasTrialCount_default (by decide)).weaken (fun fs _ _ hfs => ?_) fun f _ _ hf => ?_
    · exact hfs.2.isPrimeFactorization (by decide)
    · exact absurd hf.1 (by decide)
  obtain ⟨b, p', hrun, -⟩ := hreturns.exists_run (p := ⟨Draws.ofScript [], {}⟩)
  obtain ⟨-, hiff⟩ := isQuadraticResidue_run (by decide) (by decide) hrun
  have hb : b = true := (hiff (by decide)).mpr ⟨5, by decide⟩
  exact ⟨by decide, by decide, by decide, p', hb ▸ hrun⟩

end Search

end ExactNumerics
