import Mathlib.Data.ZMod.Units
import Mathlib.GroupTheory.Index
import Mathlib.NumberTheory.Basic
import Mathlib.RingTheory.ZMod.UnitsCyclic

/-!
# Small groups of units

The units modulo an odd composite `n` that fool a strong pseudoprime trial lie in a group: those of
which a fixed power is `1` or `-1`, `signedRoots n e`. This file bounds the size of that group, in
the three ways in which `n` can look:

* modulo a prime power, units of which the power with exponent `n - 1` is `1` differ already modulo
  the prime, so there are few of them;
* modulo a product of two coprime factors there is a unit with signs `-1` and `1` in the factors,
  which gives a second coset, and a unit that fails Fermat's test doubles the cosets;
* if no unit fails Fermat's test, there are three coprime factors, and the signs in them alone give
  four cosets.

## Main definitions

* `signedRoots n e` — the units of which the `e`-th power is `1` or `-1`

## Main results

* `four_mul_card_le_of_cosets` — four cosets
* `exists_unit_of_residues` — a unit with given residues modulo two coprime factors
* `card_le_of_prime_pow` — the first case
* `four_mul_card_signedRoots_of_two` — the second case
* `four_mul_card_signedRoots_of_three`, `exists_three_factors` — the third case
-/

namespace ExactNumerics

/-! ### Cosets -/

/-- **Four cosets.** A subgroup that misses `x`, `y`, `x * y` and `x⁻¹ * y` has at most a quarter of
the elements. -/
theorem four_mul_card_le_of_cosets {G : Type*} [CommGroup G] [Finite G] (J : Subgroup G) {x y : G}
    (hx : x ∉ J) (hy : y ∉ J) (hmul : x * y ∉ J) (hdiv : x⁻¹ * y ∉ J) :
    4 * Nat.card J ≤ Nat.card G := by
  classical
  have := Fintype.ofFinite (G ⧸ J)
  have hne : ∀ {a b : G}, a⁻¹ * b ∉ J → (a : G ⧸ J) ≠ b := fun h hc => h (QuotientGroup.eq.mp hc)
  have hcard : ({↑(1 : G), ↑x, ↑y, ↑(x * y)} : Finset (G ⧸ J)).card = 4 := by
    have h₁ : ((1 : G) : G ⧸ J) ≠ x := hne (by simpa using hx)
    have h₂ : ((1 : G) : G ⧸ J) ≠ y := hne (by simpa using hy)
    have h₃ : ((1 : G) : G ⧸ J) ≠ (x * y : G) := hne (by simpa using hmul)
    have h₄ : (x : G ⧸ J) ≠ y := hne hdiv
    have h₅ : (x : G ⧸ J) ≠ (x * y : G) := hne (by simpa using hy)
    have h₆ : (y : G ⧸ J) ≠ (x * y : G) := hne (by rwa [mul_comm x y, inv_mul_cancel_left])
    have hxs : (x : G ⧸ J) ∉ ({↑y, ↑(x * y)} : Finset (G ⧸ J)) := by
      simp only [Finset.mem_insert, Finset.mem_singleton]
      tauto
    have hone : ((1 : G) : G ⧸ J) ∉ ({↑x, ↑y, ↑(x * y)} : Finset (G ⧸ J)) := by
      simp only [Finset.mem_insert, Finset.mem_singleton]
      tauto
    rw [Finset.card_insert_of_notMem hone, Finset.card_insert_of_notMem hxs, Finset.card_pair h₆]
  have hindex : 4 ≤ J.index := by
    rw [Subgroup.index, Nat.card_eq_fintype_card, ← hcard]
    exact Finset.card_le_univ _
  calc 4 * Nat.card J ≤ J.index * Nat.card J := Nat.mul_le_mul_right _ hindex
    _ = Nat.card G := J.index_mul_card

/-- A subgroup that misses an element has at most half of the elements. -/
theorem two_mul_card_le_of_notMem {G : Type*} [Group G] [Finite G] (J : Subgroup G) {x : G}
    (hx : x ∉ J) : 2 * Nat.card J ≤ Nat.card G := by
  have hindex : 2 ≤ J.index := by
    have hpos : J.index ≠ 0 := J.index_ne_zero_of_finite
    have hne : J.index ≠ 1 := fun h => hx (Subgroup.index_eq_one.mp h ▸ Subgroup.mem_top x)
    omega
  calc 2 * Nat.card J ≤ J.index * Nat.card J := Nat.mul_le_mul_right _ hindex
    _ = Nat.card G := J.index_mul_card

/-! ### Residues of a unit -/

section Residues

variable {n u v : ℕ}

theorem chineseRemainder_apply (h : u.Coprime v) (x : ZMod (u * v)) :
    ZMod.chineseRemainder h x = (ZMod.castHom (Nat.dvd_mul_right u v) (ZMod u) x,
      ZMod.castHom (Nat.dvd_mul_left v u) (ZMod v) x) :=
  RingHom.congr_fun (Subsingleton.elim (ZMod.chineseRemainder h).toRingHom
    ((ZMod.castHom (Nat.dvd_mul_right u v) (ZMod u)).prod
      (ZMod.castHom (Nat.dvd_mul_left v u) (ZMod v)))) x

/-- **A unit with given residues** modulo two coprime factors. -/
theorem exists_unit_of_residues (hn : u * v = n) (h : u.Coprime v) (a : (ZMod u)ˣ) (b : (ZMod v)ˣ) :
    ∃ x : (ZMod n)ˣ, ZMod.unitsMap (Dvd.intro v hn) x = a ∧
      ZMod.unitsMap (Dvd.intro_left u hn) x = b := by
  subst hn
  have hx := chineseRemainder_apply h ((ZMod.chineseRemainder h).symm (a.val, b.val))
  rw [RingEquiv.apply_symm_apply, Prod.mk.injEq] at hx
  exact ⟨Units.map (ZMod.chineseRemainder h).symm.toMonoidHom (MulEquiv.prodUnits.symm (a, b)),
    Units.ext hx.1.symm, Units.ext hx.2.symm⟩

/-- A unit that is `1` modulo two coprime factors is `1`. -/
theorem unit_eq_one_of_residues (hn : u * v = n) (h : u.Coprime v) {x : (ZMod n)ˣ}
    (hu : ZMod.unitsMap (Dvd.intro v hn) x = 1) (hv : ZMod.unitsMap (Dvd.intro_left u hn) x = 1) :
    x = 1 := by
  subst hn
  refine Units.ext ((ZMod.chineseRemainder h).injective ?_)
  rw [Units.val_one, map_one, chineseRemainder_apply]
  exact Prod.ext (congrArg Units.val hu) (congrArg Units.val hv)

theorem unitsMap_eq_one_of_dvd (hu : u ∣ v) (hv : v ∣ n) {x : (ZMod n)ˣ}
    (h : ZMod.unitsMap hv x = 1) : ZMod.unitsMap (hu.trans hv) x = 1 := by
  rw [← ZMod.unitsMap_comp hu hv, MonoidHom.comp_apply, h, map_one]

theorem unitsMap_neg_one (h : u ∣ n) : ZMod.unitsMap h (-1) = -1 := by
  ext; simp [ZMod.unitsMap_def]

theorem unit_neg_one_ne_one (hu : 2 < u) : (-1 : (ZMod u)ˣ) ≠ 1 := by
  have : Fact (2 < u) := ⟨hu⟩
  intro h
  exact ZMod.neg_one_ne_one (n := u) (by simpa using congrArg Units.val h)

end Residues

/-! ### Roots of one and minus one -/

/-- The units of which the `e`-th power is `1` or `-1`. -/
def signedRoots (n e : ℕ) : Subgroup (ZMod n)ˣ where
  carrier := {x | x ^ e = 1 ∨ x ^ e = -1}
  mul_mem' := by rintro x y (hx | hx) (hy | hy) <;> simp [mul_pow, hx, hy]
  one_mem' := .inl (one_pow e)
  inv_mem' := by rintro x (hx | hx) <;> simp [hx]

section SignedRoots

variable {n e u v w : ℕ}

theorem mem_signedRoots {x : (ZMod n)ˣ} : x ∈ signedRoots n e ↔ x ^ e = 1 ∨ x ^ e = -1 := Iff.rfl

theorem pow_eq_one_of_mem_signedRoots {x : (ZMod n)ˣ} (hx : x ∈ signedRoots n e)
    (he : e * 2 ∣ n - 1) : x ^ (n - 1) = 1 := by
  obtain ⟨k, hk⟩ := he
  have hsq : x ^ (e * 2) = 1 := by
    rcases hx with h | h <;> rw [pow_mul, h] <;> simp
  rw [hk, pow_mul, hsq, one_pow]

/-- **Different signs.** A unit of which the power is `-1` modulo one factor and `1` modulo another
one is outside the group. -/
theorem notMem_signedRoots (hu : u ∣ n) (hw : w ∣ n) (h2u : 2 < u) (h2w : 2 < w) {x : (ZMod n)ˣ}
    (hxu : ZMod.unitsMap hu x ^ e = -1) (hxw : ZMod.unitsMap hw x ^ e = 1) :
    x ∉ signedRoots n e := by
  rintro (h | h)
  · rw [← map_pow, h, map_one] at hxu
    exact unit_neg_one_ne_one h2u hxu.symm
  · rw [← map_pow, h, unitsMap_neg_one] at hxw
    exact unit_neg_one_ne_one h2w hxw

variable {a : (ZMod n)ˣ}

theorem unitsMap_pow_eq_neg_one (ha : a ^ e = -1) (hu : u ∣ n) :
    ZMod.unitsMap hu a ^ e = -1 := by
  rw [← map_pow, ha, unitsMap_neg_one]

/-- **Two factors.** If a unit fails Fermat's test, the group has at most a quarter of the units
modulo a product of two coprime factors. -/
theorem four_mul_card_signedRoots_of_two [NeZero n] (hn : u * v = n) (h : u.Coprime v)
    (h2u : 2 < u) (h2v : 2 < v) (he : e * 2 ∣ n - 1) (ha : a ^ e = -1) {y : (ZMod n)ˣ}
    (hy : y ^ (n - 1) ≠ 1) : 4 * Nat.card (signedRoots n e) ≤ Nat.card (ZMod n)ˣ := by
  obtain ⟨x, hxu, hxv⟩ :=
    exists_unit_of_residues hn h (ZMod.unitsMap (Dvd.intro v hn) a) 1
  have hneg : ZMod.unitsMap (Dvd.intro v hn) x ^ e = -1 := by
    rw [hxu, unitsMap_pow_eq_neg_one ha]
  have hout : x ∉ signedRoots n e :=
    notMem_signedRoots (Dvd.intro v hn) (Dvd.intro_left u hn) h2u h2v hneg (by rw [hxv, one_pow])
  have hx : x ^ (n - 1) = 1 := by
    obtain ⟨k, hk⟩ := he
    have hsq : x ^ (e * 2) = 1 := by
      refine unit_eq_one_of_residues hn h ?_ ?_
      · rw [map_pow, pow_mul, hneg, neg_one_sq]
      · rw [map_pow, hxv, one_pow]
    rw [hk, pow_mul, hsq, one_pow]
  have hfails : ∀ z : (ZMod n)ˣ, z ^ (n - 1) ≠ 1 → z ∉ signedRoots n e := fun z hz hmem =>
    hz (pow_eq_one_of_mem_signedRoots hmem he)
  refine four_mul_card_le_of_cosets _ hout (hfails y hy) (hfails _ ?_) (hfails _ ?_)
  · rwa [mul_pow, hx, one_mul]
  · rwa [mul_pow, inv_pow, hx, inv_one, one_mul]

/-- **Three factors.** The signs alone show that the group has at most a quarter of the units. -/
theorem four_mul_card_signedRoots_of_three [NeZero n] (hn : u * v * w = n) (huv : u.Coprime v)
    (huw : u.Coprime w) (hvw : v.Coprime w) (h2u : 2 < u) (h2v : 2 < v) (h2w : 2 < w)
    (ha : a ^ e = -1) : 4 * Nat.card (signedRoots n e) ≤ Nat.card (ZMod n)ˣ := by
  have hnu : u * (v * w) = n := by rw [← mul_assoc, hn]
  have hnv : v * (u * w) = n := by rw [← mul_assoc, mul_comm v u, hn]
  have hu : u ∣ n := Dvd.intro _ hnu
  have hv : v ∣ n := Dvd.intro _ hnv
  have hw : w ∣ n := Dvd.intro_left _ hn
  obtain ⟨x, hxu, hx⟩ := exists_unit_of_residues hnu (huv.mul_right huw) (ZMod.unitsMap hu a) 1
  obtain ⟨y, hyv, hy⟩ := exists_unit_of_residues hnv (huv.symm.mul_right hvw) (ZMod.unitsMap hv a) 1
  have hxw : ZMod.unitsMap hw x = 1 := unitsMap_eq_one_of_dvd (Nat.dvd_mul_left w v) _ hx
  have hyw : ZMod.unitsMap hw y = 1 := unitsMap_eq_one_of_dvd (Nat.dvd_mul_left w u) _ hy
  have hyu : ZMod.unitsMap hu y = 1 := unitsMap_eq_one_of_dvd (Nat.dvd_mul_right u w) _ hy
  have hau := unitsMap_pow_eq_neg_one ha hu
  have hav := unitsMap_pow_eq_neg_one ha hv
  refine four_mul_card_le_of_cosets (x := x) (y := y) _ (notMem_signedRoots hu hw h2u h2w ?_ ?_)
    (notMem_signedRoots hv hw h2v h2w ?_ ?_) (notMem_signedRoots hu hw h2u h2w ?_ ?_)
    (notMem_signedRoots hu hw h2u h2w ?_ ?_)
  · rw [hxu, hau]
  · rw [hxw, one_pow]
  · rw [hyv, hav]
  · rw [hyw, one_pow]
  · rw [map_mul, mul_pow, hxu, hau, hyu, one_pow, mul_one]
  · rw [map_mul, hxw, hyw, mul_one, one_pow]
  · rw [map_mul, map_inv, mul_pow, inv_pow, hxu, hau, hyu, one_pow, mul_one, inv_neg_one]
  · rw [map_mul, map_inv, hxw, hyw, inv_one, mul_one, one_pow]

end SignedRoots

/-! ### Prime powers -/

/-- A prime divisor of the modulus divides an element that is zero modulo it. -/
theorem natCast_dvd_of_castHom_eq_zero {n p : ℕ} [NeZero n] (hp : p ∣ n) {z : ZMod n}
    (hz : ZMod.castHom hp (ZMod p) z = 0) : (p : ZMod n) ∣ z := by
  rw [← ZMod.natCast_zmod_val z, map_natCast, ZMod.natCast_eq_zero_iff] at hz
  rw [← ZMod.natCast_zmod_val z]
  exact Nat.cast_dvd_cast hz

/-- **Prime powers.** Units modulo `p ^ (k + 1)` that pass Fermat's test differ modulo `p`. -/
theorem card_le_of_prime_pow {p k : ℕ} (hp : p.Prime) (J : Subgroup (ZMod (p ^ (k + 1)))ˣ)
    (hJ : ∀ x ∈ J, x ^ (p ^ (k + 1) - 1) = 1) : Nat.card J ≤ p - 1 := by
  have : Fact p.Prime := ⟨hp⟩
  have hdvd : p ∣ p ^ (k + 1) := dvd_pow_self p (Nat.succ_ne_zero k)
  have hpos : 0 < p ^ (k + 1) := pow_pos hp.pos _
  have hself : ∀ x ∈ J, x ^ p ^ (k + 1) = x := fun x hx => by
    rw [← pow_sub_one_mul hpos.ne', hJ x hx, one_mul]
  have hinj : Function.Injective fun x : J => ZMod.unitsMap hdvd x.val := by
    rintro ⟨x, hx⟩ ⟨y, hy⟩ hxy
    have hres : (p : ZMod (p ^ (k + 1))) ∣ (x : ZMod (p ^ (k + 1))) - y := by
      refine natCast_dvd_of_castHom_eq_zero hdvd ?_
      rw [map_sub, sub_eq_zero]
      exact congrArg Units.val hxy
    have hpow := dvd_sub_pow_of_dvd_sub hres k
    rw [← Nat.cast_pow, ZMod.natCast_self, zero_dvd_iff, sub_eq_zero] at hpow
    refine Subtype.ext ?_
    calc x = x ^ p ^ (k + 1) := (hself x hx).symm
      _ = (x ^ p ^ k) ^ p := by rw [← pow_mul, ← pow_succ]
      _ = (y ^ p ^ k) ^ p := congrArg (· ^ p) (Units.ext hpow)
      _ = y ^ p ^ (k + 1) := by rw [← pow_mul, ← pow_succ]
      _ = y := hself y hy
  calc Nat.card J ≤ Nat.card (ZMod p)ˣ := Nat.card_le_card_of_injective _ hinj
    _ = p - 1 := by rw [Nat.card_eq_fintype_card, ZMod.card_units]

/-! ### When no unit fails Fermat's test -/

section Fermat

variable {n : ℕ}

theorem one_add_pow_of_sq_eq_zero {R : Type*} [CommRing R] {ε : R} (h : ε * ε = 0) (j : ℕ) :
    (1 + ε) ^ j = 1 + j * ε := by
  induction j with
  | zero => simp
  | succ j ih =>
    rw [pow_succ, ih]
    push_cast
    linear_combination (j : R) * h

/-- If a square divides the modulus, some unit fails Fermat's test. -/
theorem exists_pow_ne_one_of_sq_dvd (hn : n ≠ 0) {p : ℕ} (hp : 1 < p) (hsq : p * p ∣ n) :
    ∃ y : (ZMod n)ˣ, y ^ (n - 1) ≠ 1 := by
  obtain ⟨k, hk⟩ := hsq
  have hpos : 0 < p * k := Nat.pos_of_ne_zero fun h => hn (by rw [hk, mul_assoc, h, mul_zero])
  have hzero : ((p * k : ℕ) : ZMod n) * (p * k : ℕ) = 0 := by
    rw [← Nat.cast_mul, ZMod.natCast_eq_zero_iff]
    exact ⟨k, by rw [hk]; ring⟩
  have hne : ((p * k : ℕ) : ZMod n) ≠ 0 := by
    rw [Ne, ZMod.natCast_eq_zero_iff]
    refine Nat.not_dvd_of_pos_of_lt hpos ?_
    calc p * k = 1 * (p * k) := (one_mul _).symm
      _ < p * (p * k) := Nat.mul_lt_mul_of_pos_right hp hpos
      _ = n := by rw [hk, mul_assoc]
  generalize ((p * k : ℕ) : ZMod n) = ε at hzero hne
  have hinv : (1 + ε) * (1 - ε) = 1 := by linear_combination -hzero
  refine ⟨⟨1 + ε, 1 - ε, hinv, (mul_comm _ _).trans hinv⟩, fun h => hne ?_⟩
  have hval : (1 + ε) ^ (n - 1) = 1 := by simpa using congrArg Units.val h
  have hlast : (1 + ε) ^ n = 1 + ε := by rw [← pow_sub_one_mul hn, hval, one_mul]
  rw [one_add_pow_of_sq_eq_zero hzero, ZMod.natCast_self, zero_mul, add_zero] at hlast
  linear_combination -hlast

/-- If no unit fails Fermat's test, `q - 1` divides `n - 1` for every prime divisor `q`. -/
theorem pred_dvd_pred_of_forall_pow_eq_one [NeZero n] {q : ℕ} (hq : q.Prime) (hqn : q ∣ n)
    (h : ∀ y : (ZMod n)ˣ, y ^ (n - 1) = 1) : q - 1 ∣ n - 1 := by
  have : Fact q.Prime := ⟨hq⟩
  have hexp : Monoid.exponent (ZMod q)ˣ ∣ n - 1 := by
    refine Monoid.exponent_dvd_of_forall_pow_eq_one fun g => ?_
    obtain ⟨y, rfl⟩ := ZMod.unitsMap_surjective hqn g
    rw [← map_pow, h, map_one]
  have hcyc : IsCyclic (ZMod q)ˣ := ZMod.isCyclic_units_prime hq
  rwa [IsCyclic.exponent_eq_card, Nat.card_eq_fintype_card, ZMod.card_units] at hexp

/-- A divisor of an odd number is not two. -/
theorem two_lt_of_dvd (hodd : n % 2 = 1) {d : ℕ} (hd : d ∣ n) (h1 : 1 < d) : 2 < d := by
  by_contra hle
  obtain rfl : d = 2 := by omega
  omega

/-- The cofactor of a prime in a composite is proper. -/
theorem one_lt_of_prime_mul {p v : ℕ} (hn : 0 < n) (hc : ¬ n.Prime) (hp : p.Prime)
    (h : p * v = n) : 1 < v := by
  rcases Nat.lt_trichotomy v 1 with hlt | rfl | hgt
  · obtain rfl : v = 0 := by omega
    omega
  · exact absurd (by rwa [← h, mul_one]) hc
  · exact hgt

/-- **Three coprime factors.** An odd composite for which no unit fails Fermat's test has them. -/
theorem exists_three_factors (hodd : n % 2 = 1) (h1 : 1 < n) (hc : ¬ n.Prime)
    (h : ∀ y : (ZMod n)ˣ, y ^ (n - 1) = 1) :
    ∃ u v w, u * v * w = n ∧ u.Coprime v ∧ u.Coprime w ∧ v.Coprime w ∧ 2 < u ∧ 2 < v ∧ 2 < w := by
  have : NeZero n := ⟨by omega⟩
  have hcop : ∀ {p k}, p.Prime → p * k ∣ n → p.Coprime k := fun hp hdvd => by
    refine hp.coprime_iff_not_dvd.mpr fun hpk => ?_
    obtain ⟨y, hy⟩ :=
      exists_pow_ne_one_of_sq_dvd (by omega) hp.one_lt ((mul_dvd_mul_left _ hpk).trans hdvd)
    exact hy (h y)
  obtain ⟨p, v, hp, hpv, hmin⟩ : ∃ p v, p.Prime ∧ p * v = n ∧ ∀ q, q.Prime → q ∣ n → p ≤ q := by
    obtain ⟨v, hv⟩ := n.minFac_dvd
    exact ⟨n.minFac, v, Nat.minFac_prime (by omega), hv.symm, fun q hq hqn =>
      Nat.minFac_le_of_dvd hq.two_le hqn⟩
  have hpcop : p.Coprime v := hcop hp hpv.dvd
  have hv1 : 1 < v := one_lt_of_prime_mul (by omega) hc hp hpv
  -- a second prime factor and no third would be larger than the first, and divide it less one
  have hvc : ¬ v.Prime := fun hv => by
    have hpred := pred_dvd_pred_of_forall_pow_eq_one hv (Dvd.intro_left p hpv) h
    have hsplit : n - 1 = p * (v - 1) + (p - 1) := by
      obtain ⟨i, rfl⟩ : ∃ i, v = i + 1 := ⟨v - 1, by omega⟩
      have := hp.pos
      rw [← hpv, Nat.mul_succ, Nat.add_sub_cancel]
      omega
    rw [hsplit, Nat.dvd_add_right (Nat.dvd_mul_left _ _)] at hpred
    have hle := Nat.le_of_dvd (Nat.sub_pos_of_lt hp.one_lt) hpred
    have hge := hmin v hv (Dvd.intro_left p hpv)
    have hne : p ≠ v := fun he => hp.one_lt.ne' (by rwa [← he, Nat.coprime_self] at hpcop)
    omega
  obtain ⟨w, hw⟩ := v.minFac_dvd
  have hq : v.minFac.Prime := Nat.minFac_prime (by omega)
  have hw1 : 1 < w := one_lt_of_prime_mul (by omega) hvc hq hw.symm
  have hn : p * v.minFac * w = n := by rw [mul_assoc, ← hw, hpv]
  refine ⟨p, v.minFac, w, hn, hpcop.coprime_dvd_right v.minFac_dvd,
    hpcop.coprime_dvd_right (Dvd.intro_left _ hw.symm), hcop hq ?_, ?_, ?_, ?_⟩
  · rw [← hw]; exact Dvd.intro_left p hpv
  · exact two_lt_of_dvd hodd (Dvd.intro v hpv) hp.one_lt
  · exact two_lt_of_dvd hodd (v.minFac_dvd.trans (Dvd.intro_left p hpv)) hq.one_lt
  · exact two_lt_of_dvd hodd (Dvd.intro_left _ hn) hw1

end Fermat

end ExactNumerics
