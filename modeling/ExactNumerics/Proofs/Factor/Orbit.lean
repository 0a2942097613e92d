import ExactNumerics.Proofs.Factor.Rho
import ExactNumerics.Proofs.Integer.Root
import Mathlib.Data.Fintype.Pigeonhole
import Mathlib.Data.ZMod.Basic
import Mathlib.Dynamics.PeriodicPts.Defs

/-!
# Where the pointers of Pollard's rho meet

In round `i` the slow pointer is at place `i` of the orbit of the seed and the fast one at place
`2 * i`. A round is decided by the greatest common divisor of their distance and `n`, and the first
round in which that is not one decides the search. So everything comes down to how late the first
such round, a `FirstHit`, can be.

The orbit modulo a divisor `p` of `n` is the orbit of a map on `p` residues. Among its first `p + 1`
places two agree, and from the earlier one on the orbit is periodic. There is a multiple `i` of the
period after that place and up to the later one, and at such a place a period more changes nothing:
the two pointers agree modulo `p`. The least prime divisor of a composite is at most its square
root, so the rounds do not run out. The one way for a search of a composite to fail is then that in
the first hit the divisor is all of `n`, that is, that the pointers themselves agree.

## Main definitions

* `roundDivisor n seed i` — the greatest common divisor that decides round `i`
* `FirstHit n seed i` — round `i` is the first one in which it is not one

## Main results

* `exists_iterate_eq_iterate_two_mul` — the pointers meet in every map on a finite type
* `dvd_roundDivisor` — and modulo a divisor of `n` within as many rounds as it has residues
* `rhoSearch_of_firstHit` — the first hit decides the search
* `rho_eq_none_iff` — how an attempt at a composite fails
* `rho_attempt` — an attempt from a seed
-/

namespace ExactNumerics

variable {n p seed i : ℕ}

/-- The greatest common divisor of the distance of the pointers in round `i` and `n`. -/
def roundDivisor (n seed i : ℕ) : ℕ :=
  Int.gcd (((rhoStep n)^[i] seed : ℕ) - ((rhoStep n)^[2 * i] seed : ℕ) : ℤ) n

/-- Round `i` is the first one with a greatest common divisor that is not one. -/
structure FirstHit (n seed i : ℕ) : Prop where
  /-- Rounds are counted from one. -/
  pos : 1 ≤ i
  /-- The greatest common divisor is not one. -/
  hit : 1 < roundDivisor n seed i
  /-- In the rounds before it was. -/
  before : ∀ j, 1 ≤ j → j < i → roundDivisor n seed j = 1

theorem roundDivisor_dvd (n seed i : ℕ) : roundDivisor n seed i ∣ n :=
  Int.natCast_dvd_natCast.mp (Int.gcd_dvd_right _ _)

theorem roundDivisor_pos (hn : 0 < n) (seed i : ℕ) : 0 < roundDivisor n seed i :=
  Nat.pos_of_dvd_of_pos (roundDivisor_dvd n seed i) hn

/-! ### The rounds -/

/-- One round, from the places of the pointers before it. -/
theorem rhoSearch_succ (n seed rounds k : ℕ) :
    rhoSearch n (rounds + 1) ((rhoStep n)^[k] seed) ((rhoStep n)^[2 * k] seed) =
      if 1 < roundDivisor n seed (k + 1) && roundDivisor n seed (k + 1) < n then
        some (roundDivisor n seed (k + 1))
      else if roundDivisor n seed (k + 1) = n then none
      else rhoSearch n rounds ((rhoStep n)^[k + 1] seed) ((rhoStep n)^[2 * (k + 1)] seed) := by
  rw [rhoSearch, roundDivisor, show 2 * (k + 1) = 2 * k + 1 + 1 by omega,
    Function.iterate_succ_apply', Function.iterate_succ_apply' (rhoStep n) (2 * k + 1),
    Function.iterate_succ_apply' (rhoStep n) (2 * k)]

/-- The first hit decides a search that has not come to it yet and has the rounds to do so. -/
theorem rhoSearch_of_firstHit (hn : 2 ≤ n) (h : FirstHit n seed i) {rounds k : ℕ} (hk : k < i)
    (hi : i ≤ k + rounds) :
    rhoSearch n rounds ((rhoStep n)^[k] seed) ((rhoStep n)^[2 * k] seed) =
      if roundDivisor n seed i < n then some (roundDivisor n seed i) else none := by
  induction rounds generalizing k with
  | zero => omega
  | succ rounds ih =>
    rw [rhoSearch_succ]
    by_cases hlast : k + 1 = i
    · rw [hlast]
      by_cases hlt : roundDivisor n seed i < n
      · simp [h.hit, hlt]
      · have hle := Nat.le_of_dvd (by omega) (roundDivisor_dvd n seed i)
        have heq : roundDivisor n seed i = n := by omega
        simp [heq]
    · have hone := h.before (k + 1) (by omega) (by omega)
      have hne : ¬ 1 = n := by omega
      simp only [hone, Nat.lt_irrefl, decide_false, Bool.false_and, Bool.false_eq_true, if_false,
        hne]
      exact ih (by omega) (by omega)

/-- With a hit in some round there is a first one. -/
theorem exists_firstHit (hn : 0 < n) (hi : 1 ≤ i) (hhit : 1 < roundDivisor n seed i) :
    ∃ j ≤ i, FirstHit n seed j := by
  classical
  have hex : ∃ j, 1 ≤ j ∧ 1 < roundDivisor n seed j := ⟨i, hi, hhit⟩
  obtain ⟨hpos, hfirst⟩ := Nat.find_spec hex
  refine ⟨Nat.find hex, Nat.find_min' hex ⟨hi, hhit⟩, hpos, hfirst, fun j hj hlt => ?_⟩
  have hnot : ¬ 1 < roundDivisor n seed j := fun hc => Nat.find_min hex hlt ⟨hj, hc⟩
  have := roundDivisor_pos hn seed j
  omega

/-! ### Meeting modulo a divisor -/

/-- **The pointers meet** in every map on a finite type, within as many rounds as it has
elements. -/
theorem exists_iterate_eq_iterate_two_mul {α : Type} [Fintype α] (f : α → α) (z : α) :
    ∃ i, 1 ≤ i ∧ i ≤ Fintype.card α ∧ f^[i] z = f^[2 * i] z := by
  obtain ⟨a, b, hab, hb, heq⟩ : ∃ a b, a < b ∧ b ≤ Fintype.card α ∧ f^[a] z = f^[b] z := by
    obtain ⟨a, b, hne, heq⟩ := Fintype.exists_ne_map_eq_of_card_lt
      (fun k : Fin (Fintype.card α + 1) => f^[k] z) (by simp)
    rcases Nat.lt_or_gt_of_ne (Fin.val_ne_of_ne hne) with hlt | hgt
    · exact ⟨a, b, hlt, by omega, heq⟩
    · exact ⟨b, a, hgt, by omega, heq.symm⟩
  have hperiod : Function.IsPeriodicPt f (b - a) (f^[a] z) := by
    rw [Function.IsPeriodicPt, Function.IsFixedPt, ← Function.iterate_add_apply,
      Nat.sub_add_cancel hab.le]
    exact heq.symm
  -- the multiple of the period that comes next after the place `a`
  obtain ⟨i, hdvd, hai, hib⟩ : ∃ i, b - a ∣ i ∧ a < i ∧ i ≤ b := by
    refine ⟨(b - a) * (a / (b - a) + 1), Dvd.intro _ rfl, Nat.lt_mul_div_succ a (by omega), ?_⟩
    have := Nat.mul_div_le a (b - a)
    rw [Nat.mul_add]
    omega
  refine ⟨i, by omega, hib.trans hb, ?_⟩
  have hplace : f^[i - a] (f^[a] z) = f^[i] z := by
    rw [← Function.iterate_add_apply, Nat.sub_add_cancel hai.le]
  have hmeet : Function.IsPeriodicPt f i (f^[i] z) :=
    hplace ▸ (hperiod.trans_dvd hdvd).apply_iterate (i - a)
  rw [Nat.two_mul, Function.iterate_add_apply]
  exact hmeet.symm

/-- Modulo a divisor of `n`, the orbit is the one of the map on its residues. -/
theorem natCast_iterate_rhoStep (hdvd : p ∣ n) (seed i : ℕ) :
    (((rhoStep n)^[i] seed : ℕ) : ZMod p) = (fun z : ZMod p => z * z + 1)^[i] seed := by
  have hstep : Function.Semiconj (fun x : ℕ => (x : ZMod p)) (rhoStep n)
      fun z : ZMod p => z * z + 1 := by
    intro x
    have hmod : rhoStep n x ≡ x * x + 1 [MOD p] := (Nat.mod_modEq _ n).of_dvd hdvd
    simpa using (ZMod.natCast_eq_natCast_iff _ _ p).mpr hmod
  exact hstep.iterate_right i seed

/-- **A divisor shows** within as many rounds as it has residues. -/
theorem dvd_roundDivisor (hp : 0 < p) (hdvd : p ∣ n) (seed : ℕ) :
    ∃ i, 1 ≤ i ∧ i ≤ p ∧ p ∣ roundDivisor n seed i := by
  have : NeZero p := ⟨hp.ne'⟩
  obtain ⟨i, hpos, hle, hmeet⟩ :=
    exists_iterate_eq_iterate_two_mul (fun z : ZMod p => z * z + 1) (seed : ZMod p)
  rw [ZMod.card] at hle
  rw [← natCast_iterate_rhoStep hdvd, ← natCast_iterate_rhoStep hdvd] at hmeet
  refine ⟨i, hpos, hle, ?_⟩
  have hdistance : (p : ℤ) ∣ ((rhoStep n)^[i] seed : ℕ) - ((rhoStep n)^[2 * i] seed : ℕ) := by
    rw [← ZMod.intCast_zmod_eq_zero_iff_dvd]
    push_cast
    rw [hmeet, sub_self]
  exact Int.natCast_dvd_natCast.mp
    (Int.dvd_coe_gcd hdistance (Int.natCast_dvd_natCast.mpr hdvd))

/-- A composite has a hit within as many rounds as its square root. -/
theorem exists_hit_of_not_prime (hn : 2 ≤ n) (hcomposite : ¬ n.Prime) (seed : ℕ) :
    ∃ i, 1 ≤ i ∧ i ≤ n.sqrt ∧ 1 < roundDivisor n seed i := by
  have hprime : n.minFac.Prime := Nat.minFac_prime (by omega)
  obtain ⟨i, hpos, hle, hdvd⟩ := dvd_roundDivisor hprime.pos n.minFac_dvd seed
  refine ⟨i, hpos, hle.trans ?_, hprime.one_lt.trans_le ?_⟩
  · exact Nat.le_sqrt'.mpr (Nat.minFac_sq_le_self (by omega) hcomposite)
  · exact Nat.le_of_dvd (roundDivisor_pos (by omega) seed i) hdvd

/-- The divisor of a round is all of `n` exactly if the pointers agree. -/
theorem roundDivisor_eq_iff (hn : 0 < n) (hi : 1 ≤ i) :
    roundDivisor n seed i = n ↔ (rhoStep n)^[i] seed = (rhoStep n)^[2 * i] seed := by
  have hlt : ∀ k, 1 ≤ k → (rhoStep n)^[k] seed < n := fun k hk => by
    rw [← Nat.sub_add_cancel hk, Function.iterate_succ_apply']
    exact Nat.mod_lt _ hn
  constructor
  · intro heq
    have hdvd : (n : ℤ) ∣ ((rhoStep n)^[i] seed : ℕ) - ((rhoStep n)^[2 * i] seed : ℕ) := by
      have hleft := Int.gcd_dvd_left
        (((rhoStep n)^[i] seed : ℕ) - ((rhoStep n)^[2 * i] seed : ℕ) : ℤ) n
      rwa [← roundDivisor, heq] at hleft
    exact (Nat.modEq_iff_dvd.mpr hdvd).symm.eq_of_lt_of_lt (hlt i hi) (hlt (2 * i) (by omega))
  · intro heq
    rw [roundDivisor, heq, sub_self, Int.gcd_zero_left, Int.natAbs_natCast]

/-! ### An attempt -/

/-- There is nothing to find in a prime. -/
theorem rho_of_prime (hn : n.Prime) (seed : ℕ) : rho n seed = none := by
  cases hfound : rho n seed with
  | none => rfl
  | some d =>
    obtain ⟨hone, hlt, hdvd⟩ := rho_proper hfound
    rcases (Nat.dvd_prime hn).mp hdvd with heq | heq <;> omega

/-- A hit within the rounds decides the attempt. -/
theorem rho_of_firstHit (hn : 2 ≤ n) (h : FirstHit n seed i) (hi : i ≤ n.sqrt) :
    rho n seed = if roundDivisor n seed i < n then some (roundDivisor n seed i) else none := by
  rw [rho, squareRoot_eq_sqrt]
  exact rhoSearch_of_firstHit (k := 0) hn h h.pos (by omega)

/-- A composite has a first hit within as many rounds as its square root. -/
theorem exists_firstHit_of_not_prime (hn : 2 ≤ n) (hcomposite : ¬ n.Prime) (seed : ℕ) :
    ∃ i ≤ n.sqrt, FirstHit n seed i := by
  obtain ⟨k, hk, hksqrt, hhit⟩ := exists_hit_of_not_prime hn hcomposite seed
  obtain ⟨i, hik, hfirst⟩ := exists_firstHit (by omega) hk hhit
  exact ⟨i, hik.trans hksqrt, hfirst⟩

/-- More rounds than the square root of a composite make no difference. -/
theorem rhoSearch_eq_rho (hn : 2 ≤ n) (hcomposite : ¬ n.Prime) (seed : ℕ) {rounds : ℕ}
    (hrounds : n.sqrt ≤ rounds) : rhoSearch n rounds seed seed = rho n seed := by
  obtain ⟨i, hi, hfirst⟩ := exists_firstHit_of_not_prime hn hcomposite seed
  rw [rho_of_firstHit hn hfirst hi]
  exact rhoSearch_of_firstHit (k := 0) hn hfirst hfirst.pos (by omega)

/-- **How an attempt at a composite fails.** The pointers agree, and did not share anything with
the number before. -/
theorem rho_eq_none_iff (hn : 2 ≤ n) (hcomposite : ¬ n.Prime) :
    rho n seed = none ↔ ∃ i, 1 ≤ i ∧ i ≤ n.sqrt ∧
      (rhoStep n)^[i] seed = (rhoStep n)^[2 * i] seed ∧
      ∀ j, 1 ≤ j → j < i → roundDivisor n seed j = 1 := by
  constructor
  · intro hnone
    obtain ⟨i, hi, hfirst⟩ := exists_firstHit_of_not_prime hn hcomposite seed
    refine ⟨i, hfirst.pos, hi, (roundDivisor_eq_iff (by omega) hfirst.pos).mp ?_, hfirst.before⟩
    have hle := Nat.le_of_dvd (by omega) (roundDivisor_dvd n seed i)
    by_contra hne
    rw [rho_of_firstHit hn hfirst hi, if_pos (by omega)] at hnone
    exact Option.some_ne_none _ hnone
  · rintro ⟨i, hpos, hi, hmeet, hbefore⟩
    have hall := (roundDivisor_eq_iff (by omega) hpos).mpr hmeet
    have hfirst : FirstHit n seed i := ⟨hpos, by omega, hbefore⟩
    rw [rho_of_firstHit hn hfirst hi, if_neg (by omega)]

/-- **An attempt from a seed.** What it finds is a proper divisor, so it finds nothing in a prime. A
composite has a hit within as many rounds as its square root, so further rounds make no difference,
and the attempt fails exactly if the pointers agree in a round before which every greatest common
divisor was one. An attempt with a drawn seed is the one from that seed. -/
theorem rho_attempt (hn : 2 ≤ n) (seed : ℕ) :
    (∀ d, rho n seed = some d → 1 < d ∧ d < n ∧ d ∣ n) ∧
      (n.Prime → rho n seed = none) ∧
      (¬ n.Prime →
        (∃ i, 1 ≤ i ∧ i ≤ n.sqrt ∧ 1 < roundDivisor n seed i) ∧
        (∀ rounds, n.sqrt ≤ rounds → rhoSearch n rounds seed seed = rho n seed) ∧
        (rho n seed = none ↔ ∃ i, 1 ≤ i ∧ i ≤ n.sqrt ∧
          (rhoStep n)^[i] seed = (rhoStep n)^[2 * i] seed ∧
          ∀ j, 1 ≤ j → j < i → roundDivisor n seed j = 1)) ∧
      ∀ (σ : Search.Surroundings) (p : Search.Progress),
        p.draws.stream p.draws.taken % n = seed →
          ∃ p', (Search.rho n).run σ p = (.ok (rho n seed), p') := by
  refine ⟨fun d hd => ?_, fun hprime => rho_of_prime hprime seed, fun hcomposite => ?_,
    fun σ p hseed => ?_⟩
  · obtain ⟨hone, hlt, hdvd⟩ := rho_proper hd
    exact ⟨hone, hlt, hdvd⟩
  · exact ⟨exists_hit_of_not_prime hn hcomposite seed,
      fun _ => rhoSearch_eq_rho hn hcomposite seed, rho_eq_none_iff hn hcomposite⟩
  · have hdrawn : (p.draws.stream p.draws.taken % n).toNat = seed := by omega
    refine Search.Returns.exists_run_eq ?_
    refine (Search.meets_rho (by omega)).weaken (fun r _ _ h => ?_) fun _ _ _ => False.elim
    rw [h.1, hdrawn]

/-- From the seed two, 35 is split after one round: five is next, and then 26. -/
theorem rho_attempt_thirty_five : 2 ≤ 35 ∧ ¬ Nat.Prime 35 ∧ rho 35 2 = some 7 ∧ 7 ∣ 35 ∧
    ∃ i, 1 ≤ i ∧ i ≤ Nat.sqrt 35 ∧ 1 < roundDivisor 35 2 i := by
  have hfound : rho 35 2 = some 7 := by decide +kernel
  have hcomposite : ¬ Nat.Prime 35 := by decide
  obtain ⟨hproper, -, hrounds, -⟩ := rho_attempt (by decide : 2 ≤ 35) 2
  exact ⟨by decide, hcomposite, hfound, (hproper 7 hfound).2.2, (hrounds hcomposite).1⟩

end ExactNumerics
