import ExactNumerics.Proofs.Prime.StrongTrial
import ExactNumerics.Proofs.Prime.UnitCount

/-!
# At most a quarter of the witnesses fool a trial

The witnesses in `[2, n)` with which a trial of a composite `n` ends in favour of a prime are at
most a quarter of all. Together with `1` they are units that fool the trial, so it is enough that
four times the number of these is at most `n + 2`.

For an odd `n` the units that fool the trial lie in `signedRoots n e`, where `e = m * 2 ^ i` and `i`
is the greatest number below `ν` for which `-1` is a `2 ^ i`-th power. For an even `n` nothing is
squared, and they are the units of which the power with the odd exponent `n - 1` is `1`; `-1` is
not among them, and half of the residues are no units in the first place.

## Main definitions

* `foolingWitnesses n` — the witnesses with which a trial of `n` ends in favour of a prime

## Main results

* `exists_signedRoots_of_fools` — the group around the units that fool a trial
* `four_mul_card_fools_le` — how many units fool a trial
* `four_mul_card_fooling_le` — how many witnesses do
-/

namespace ExactNumerics

/-! ### The group around the units that fool a trial -/

section Group

variable {n : ℕ}

/-- **The group around the units that fool a trial** of an odd number. -/
theorem exists_signedRoots_of_fools (hodd : n % 2 = 1) (hn : 2 < n) :
    ∃ e, e * 2 ∣ n - 1 ∧ (∃ a : (ZMod n)ˣ, a ^ e = -1) ∧
      ∀ x : (ZMod n)ˣ, Fools n x → x ∈ signedRoots n e := by
  classical
  obtain ⟨ν, m, hsplit⟩ : ∃ ν m, splitTwos (n - 1) = (ν, m) := ⟨_, _, rfl⟩
  have hprod : 2 ^ ν * m = n - 1 := by simpa [hsplit] using two_pow_mul_splitTwos (n - 1)
  have hm : m % 2 = 1 := by simpa [hsplit] using splitTwos_odd (by omega : 0 < n - 1)
  have hν : 0 < ν := by
    rcases Nat.eq_zero_or_pos ν with rfl | h
    · rw [pow_zero, one_mul] at hprod; omega
    · exact h
  -- the greatest exponent for which `-1` is still a power
  obtain ⟨i, hi, ⟨a, ha⟩, hmax⟩ : ∃ i < ν, (∃ a : (ZMod n)ˣ, a ^ 2 ^ i = -1) ∧
      ∀ j < ν, (∃ a : (ZMod n)ˣ, a ^ 2 ^ j = -1) → j ≤ i := by
    let P : ℕ → Prop := fun j => ∃ a : (ZMod n)ˣ, a ^ 2 ^ j = -1
    have hzero : P 0 := ⟨-1, by simp⟩
    refine ⟨Nat.findGreatest P (ν - 1), ?_, Nat.findGreatest_spec (Nat.zero_le _) hzero,
      fun j hj hP => Nat.le_findGreatest (by omega) hP⟩
    have := Nat.findGreatest_le (P := P) (ν - 1)
    omega
  refine ⟨m * 2 ^ i, ?_, ⟨a, ?_⟩, fun x hx => ?_⟩
  · rw [← hprod, mul_assoc, ← pow_succ, mul_comm]
    exact mul_dvd_mul_right (pow_dvd_pow 2 hi) m
  · rw [mul_comm, pow_mul, ha]
    exact (Nat.odd_iff.mpr hm).neg_one_pow
  · rw [mem_signedRoots]
    rw [Fools, hsplit] at hx
    rcases hx with hone | ⟨j, hj, hminus⟩
    · have h1 : x ^ m = 1 := Units.ext (by simpa using hone)
      exact .inl (by rw [pow_mul, h1, one_pow])
    · have hj1 : x ^ (m * 2 ^ j) = -1 := Units.ext (by simpa using hminus)
      have hji : j ≤ i := hmax j hj ⟨x ^ m, by rw [← pow_mul, hj1]⟩
      rcases Nat.lt_or_eq_of_le hji with hlt | rfl
      · have h2 : x ^ (m * 2 ^ (j + 1)) = 1 := by
          rw [pow_succ, ← mul_assoc, pow_mul, hj1, neg_one_sq]
        obtain ⟨t, rfl⟩ := Nat.exists_eq_add_of_le hlt
        exact .inl (by rw [pow_add, ← mul_assoc, pow_mul, h2, one_pow])
      · exact .inr hj1

end Group

/-! ### Units that fool a trial -/

section Units

variable {n : ℕ}

theorem card_units_le [NeZero n] : Nat.card (ZMod n)ˣ ≤ n := by
  rw [Nat.card_eq_fintype_card, ZMod.card_units_eq_totient]
  exact Nat.totient_le n

/-- The units modulo an even number are odd. -/
theorem two_mul_card_units_le [NeZero n] (heven : n % 2 = 0) : 2 * Nat.card (ZMod n)ˣ ≤ n := by
  have hodd : ∀ x : (ZMod n)ˣ, (x : ZMod n).val % 2 = 1 := fun x => by
    have hcop : ((x : ZMod n).val).Coprime 2 :=
      (ZMod.val_coe_unit_coprime x).coprime_dvd_right (Nat.dvd_of_mod_eq_zero heven)
    exact Nat.odd_iff.mp (Nat.coprime_two_right.mp hcop)
  have hlt : ∀ x : (ZMod n)ˣ, (x : ZMod n).val / 2 < n / 2 := fun x => by
    have := ZMod.val_lt (x : ZMod n)
    have := hodd x
    omega
  have hinj : Function.Injective fun x : (ZMod n)ˣ => (⟨_, hlt x⟩ : Fin (n / 2)) := by
    intro x y hxy
    have hhalf : (x : ZMod n).val / 2 = (y : ZMod n).val / 2 := congrArg Fin.val hxy
    refine Units.ext (ZMod.val_injective n ?_)
    have := hodd x
    have := hodd y
    omega
  have hcard := Nat.card_le_card_of_injective _ hinj
  rw [Nat.card_eq_fintype_card (α := Fin (n / 2)), Fintype.card_fin] at hcard
  omega

/-- A group that holds the units that fool a trial bounds their number. -/
theorem card_fools_le_card [NeZero n] (J : Subgroup (ZMod n)ˣ)
    (hJ : ∀ x : (ZMod n)ˣ, Fools n x → x ∈ J) :
    Nat.card {x : (ZMod n)ˣ // Fools n x} ≤ Nat.card J :=
  Nat.card_le_card_of_injective (fun x => ⟨x.1, hJ x.1 x.2⟩) fun _ _ h =>
    Subtype.ext (congrArg (fun z : J => z.val) h)

theorem splitTwos_of_odd {k : ℕ} (hk : k % 2 = 1) : splitTwos k = (0, k) := by
  rw [splitTwos, if_neg (by omega)]

/-- The units that fool a trial of an even number. -/
theorem four_mul_card_fools_of_even (heven : n % 2 = 0) (hn : 4 ≤ n) :
    4 * Nat.card {x : (ZMod n)ˣ // Fools n x} ≤ n + 2 := by
  have : NeZero n := ⟨by omega⟩
  have hodd : (n - 1) % 2 = 1 := by omega
  let J : Subgroup (ZMod n)ˣ := (powMonoidHom (n - 1)).ker
  have hJ : ∀ x : (ZMod n)ˣ, Fools n x → x ∈ J := fun x hx => by
    rw [Fools, splitTwos_of_odd hodd] at hx
    rcases hx with h | ⟨j, hj, -⟩
    · exact Units.ext (by simpa using h)
    · omega
  have hout : (-1 : (ZMod n)ˣ) ∉ J := fun h => by
    have hpow : (-1 : (ZMod n)ˣ) ^ (n - 1) = 1 := h
    rw [(Nat.odd_iff.mpr hodd).neg_one_pow] at hpow
    exact unit_neg_one_ne_one (by omega) hpow
  have hle := card_fools_le_card J hJ
  have hhalf := two_mul_card_le_of_notMem J hout
  have hunits := two_mul_card_units_le heven
  omega

/-- An odd composite is a higher power of a prime or a product of two coprime factors. -/
theorem exists_prime_pow_or_coprime (hodd : n % 2 = 1) (h1 : 1 < n) (hc : ¬ n.Prime) :
    (∃ p k, p.Prime ∧ 2 < p ∧ n = p ^ (k + 2)) ∨
      ∃ u v, u * v = n ∧ u.Coprime v ∧ 2 < u ∧ 2 < v := by
  obtain ⟨p, hp, hpn⟩ := Nat.exists_prime_and_dvd h1.ne'
  obtain ⟨k, v, hv, hn⟩ := Nat.exists_eq_pow_mul_and_not_dvd (by omega : n ≠ 0) p hp.ne_one
  have h2p := two_lt_of_dvd hodd hpn hp.one_lt
  rcases Nat.lt_trichotomy v 1 with hlt | rfl | hgt
  · obtain rfl : v = 0 := by omega
    exact absurd (dvd_zero p) hv
  · rw [mul_one] at hn
    match k, hn with
    | 0, hn => rw [pow_zero] at hn; omega
    | 1, hn => exact absurd (by rwa [hn, pow_one]) hc
    | k + 2, hn => exact .inl ⟨p, k, hp, h2p, hn⟩
  · have hk : k ≠ 0 := by
      rintro rfl
      exact hv (by rwa [hn, pow_zero, one_mul] at hpn)
    exact .inr ⟨p ^ k, v, hn.symm, (hp.coprime_iff_not_dvd.mpr hv).pow_left k,
      h2p.trans_le (Nat.le_self_pow hk p), two_lt_of_dvd hodd (Dvd.intro_left _ hn.symm) hgt⟩

/-- The units that fool a trial of an odd composite. -/
theorem four_mul_card_fools_of_odd (hodd : n % 2 = 1) (h1 : 1 < n) (hc : ¬ n.Prime) :
    4 * Nat.card {x : (ZMod n)ˣ // Fools n x} ≤ n + 2 := by
  have : NeZero n := ⟨by omega⟩
  have h2 : 2 < n := by omega
  obtain ⟨e, he, ⟨a, ha⟩, hmem⟩ := exists_signedRoots_of_fools hodd h2
  have hle := card_fools_le_card (signedRoots n e) hmem
  have hunits : Nat.card (ZMod n)ˣ ≤ n := card_units_le
  rcases exists_prime_pow_or_coprime hodd h1 hc with
    ⟨p, k, hp, h2p, rfl⟩ | ⟨u, v, huv, hcop, hu, hv⟩
  · have hfew := hle.trans (card_le_of_prime_pow hp (signedRoots (p ^ (k + 2)) e) fun x hx =>
      pow_eq_one_of_mem_signedRoots hx he)
    have hsq : p * p ≤ p ^ (k + 2) := by
      rw [← sq]; exact Nat.pow_le_pow_right hp.pos (by omega)
    have h4 : 4 * (p - 1) ≤ p * p + 2 := by
      obtain ⟨q, rfl⟩ : ∃ q, p = q + 3 := ⟨p - 3, by omega⟩
      have hexpand : (q + 3) * (q + 3) = q * q + 6 * q + 9 := by ring
      omega
    omega
  · by_cases hf : ∀ y : (ZMod n)ˣ, y ^ (n - 1) = 1
    · obtain ⟨u, v, w, hn, huv, huw, hvw, hu, hv, hw⟩ := exists_three_factors hodd h1 hc hf
      have := four_mul_card_signedRoots_of_three hn huv huw hvw hu hv hw ha
      omega
    · push Not at hf
      obtain ⟨y, hy⟩ := hf
      have := four_mul_card_signedRoots_of_two huv hcop hu hv he ha hy
      omega

/-- **How many units fool a trial** of a composite. -/
theorem four_mul_card_fools_le (hn : 4 ≤ n) (hc : ¬ n.Prime) :
    4 * Nat.card {x : (ZMod n)ˣ // Fools n x} ≤ n + 2 := by
  rcases Nat.mod_two_eq_zero_or_one n with heven | hodd
  · exact four_mul_card_fools_of_even heven hn
  · exact four_mul_card_fools_of_odd hodd (by omega) hc

end Units

/-! ### Witnesses that fool a trial -/

/-- The witnesses with which a trial of `n` ends in favour of a prime. -/
def foolingWitnesses (n : ℕ) : Finset ℕ :=
  (Finset.Ico 2 n).filter fun a => strongTrial n a = .probablyPrime

/-- **How many witnesses fool a trial** of a composite: at most a quarter. -/
theorem four_mul_card_fooling_le {n : ℕ} (hn : 4 ≤ n) (hc : ¬ n.Prime) :
    4 * (foolingWitnesses n).card ≤ n - 2 := by
  classical
  have : NeZero n := ⟨by omega⟩
  let units : Finset (ZMod n)ˣ := Finset.univ.filter fun x => Fools n x
  have hsub : insert 1 (foolingWitnesses n) ⊆
      units.image fun x : (ZMod n)ˣ => (x : ZMod n).val := by
    intro a ha
    have hfool : a < n ∧ a.Coprime n ∧ Fools n a := by
      rcases Finset.mem_insert.mp ha with rfl | ha
      · exact ⟨by omega, Nat.coprime_one_left n, .inl (by simp)⟩
      · obtain ⟨hrange, hverdict⟩ := Finset.mem_filter.mp ha
        exact ⟨(Finset.mem_Ico.mp hrange).2,
          (strongTrial_eq_probablyPrime_iff (by omega) a).mp hverdict⟩
    obtain ⟨hlt, hcop, hfools⟩ := hfool
    refine Finset.mem_image.mpr ⟨ZMod.unitOfCoprime a hcop, ?_, ?_⟩
    · exact Finset.mem_filter.mpr ⟨Finset.mem_univ _, by simpa using hfools⟩
    · rw [ZMod.coe_unitOfCoprime, ZMod.val_natCast, Nat.mod_eq_of_lt hlt]
  have hcard : (foolingWitnesses n).card + 1 ≤ units.card := by
    rw [← Finset.card_insert_of_notMem (a := 1) (by simp [foolingWitnesses])]
    exact (Finset.card_le_card hsub).trans Finset.card_image_le
  have hunits := four_mul_card_fools_le hn hc
  rw [Nat.card_eq_fintype_card, Fintype.card_subtype] at hunits
  change 4 * units.card ≤ n + 2 at hunits
  omega

end ExactNumerics
