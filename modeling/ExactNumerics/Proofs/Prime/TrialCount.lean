import ExactNumerics.Proofs.Binary64.Ulp
import ExactNumerics.Proofs.Prime.TrialSeries
import ExactNumerics.Proofs.Settings.Tolerance

/-!
# The number of trials for a tolerance

The tolerances are the doubles between zero and one. The number of trials is the logarithm of the
reciprocal rounded up, so it takes a reciprocal above one for a trial to be made at all, and a
finite one for there to be a number.

The first is never in doubt. The greatest tolerance is `1 - 2 ^ -53`, its reciprocal is more than
`1 + 2 ^ -53`, and this is half of the way to the double after one. The second fails at the other
end: the reciprocals of the tolerances up to `2 ^ -1024`, all of them subnormal, are rounded to
infinity. With such a tolerance every number past the table that is submitted to trials fails.

## Main results

* `Binary64.roundsTo_one_div` — a reciprocal is rounded once
* `Binary64.one_lt_toRat_one_div` — no tolerance has one as its reciprocal
* `Binary64.isFinite_one_div_iff` — which tolerances have a finite reciprocal
* `Search.meets_repeatedTrials_succ` — a series of trials makes the first one
* `checkedTrialCount_pos_iff` — which tolerances have a number of trials
* `not_exists_trialCount_leastSubnormal` — the least double has none
-/

namespace ExactNumerics

variable {t : Binary64}

namespace Binary64

variable {x : Binary64} {q : ℚ}

/-! ### Reciprocals -/

theorem magnitude_ne_zero_of_pos (hpos : 0 < t.toRat) : t.magnitude ≠ 0 := by
  intro hzero
  have habs := abs_toRat t
  rw [hzero, unitsOfMagnitude_zero, Nat.cast_zero, zero_div] at habs
  exact hpos.ne' (abs_eq_zero.mp habs)

/-- **A reciprocal is rounded once.** -/
theorem roundsTo_one_div (ht : t.isFinite) (hpos : 0 < t.toRat) :
    RoundsTo (1 / t.toRat) (one.div t) := by
  have hnegative : t.negative = false := by
    by_contra hneg
    exact absurd (t.toRat_sign.2 (by simpa using hneg)) (not_le.mpr hpos)
  have hunits : 0 < t.units := by
    rw [toRat_eq, div_pos_iff_of_pos_right ratCast_unitsPerOne_pos] at hpos
    exact Int.cast_pos.mp hpos
  have hmagnitude := magnitude_ne_zero_of_pos hpos
  have hdiv : one.div t = roundUnits false (unitsPerOne * unitsPerOne) t.units.natAbs := by
    have hone : one.units.natAbs = unitsPerOne := by decide +kernel
    have hfalse : (one.negative != t.negative) = false := by rw [hnegative]; decide
    simp only [div, hfalse, hone, not_isNaN_of_isFinite ht, isInfinite_eq_false_of_isFinite ht,
      hmagnitude]
    rfl
  have hq : decide (1 / t.toRat < 0) = false := by simpa using hpos.le
  rw [hdiv, ← hq]
  refine roundsTo_roundUnits (Int.natAbs_pos.mpr hunits.ne') ?_
  rw [abs_of_pos (one_div_pos.mpr hpos), toRat_eq, one_div_div, Nat.cast_natAbs,
    abs_of_pos hunits, div_mul_eq_mul_div, Nat.cast_mul]

/-- What is more than half of the way from one to the next double is rounded to a number above
one. -/
theorem one_lt_toRat_of_roundsTo (h : RoundsTo q x) (hfin : x.isFinite) (hq : 1 + 1 / 2 ^ 53 < q) :
    1 < x.toRat := by
  have hnext : one.next.toRat = 1 + 1 / 2 ^ 52 := by decide +kernel
  have hnear := h.le hfin one.next (by decide)
  rw [hnext] at hnear
  by_contra hle
  rw [abs_of_neg (by linarith : x.toRat - q < 0)] at hnear
  rcases abs_cases (1 + 1 / 2 ^ 52 - q) with ⟨habs, -⟩ | ⟨habs, -⟩
  · linarith
  · linarith

/-- **No tolerance has one as its reciprocal.** -/
theorem one_lt_toRat_one_div (h : Settings.admitsTolerance t = true)
    (hfin : (one.div t).isFinite) : 1 < (one.div t).toRat := by
  obtain ⟨ht, hpos, hlt⟩ := toRat_of_admitsTolerance h
  refine one_lt_toRat_of_roundsTo (roundsTo_one_div ht hpos) hfin ?_
  -- the greatest tolerance is the double before one
  have hprevious : one.previous.toRat = 1 - 1 / 2 ^ 53 := by decide +kernel
  have hle : t.toRat ≤ 1 - 1 / 2 ^ 53 := by
    rw [← toRat_one, toRat_lt_iff] at hlt
    rw [← hprevious, toRat_le_iff]
    have hord : one.previous.ordinal = one.ordinal - 1 := by decide
    omega
  rw [lt_div_iff₀ hpos]
  calc (1 + 1 / 2 ^ 53) * t.toRat ≤ (1 + 1 / 2 ^ 53) * (1 - 1 / 2 ^ 53) :=
        mul_le_mul_of_nonneg_left hle (by positivity)
    _ < 1 := by norm_num

/-- **Which tolerances have a finite reciprocal.** In units they are the ones above `2 ^ 50`. -/
theorem one_div_lt_overflowBound_iff (hpos : 0 < t.toRat) :
    1 / t.toRat < overflowBound ↔ 1 / 2 ^ 1024 < t.toRat := by
  have hone : (unitsPerOne : ℚ) = 2 ^ 970 * 2 ^ 104 := by rw [ratCast_unitsPerOne, ← pow_add]
  have hone' : (unitsPerOne : ℚ) = 2 ^ 1024 * 2 ^ 50 := by rw [ratCast_unitsPerOne, ← pow_add]
  have hbound : overflowBound = (2 ^ 54 - 1) * 2 ^ 970 := by
    rw [overflowBound, sub_one_mul, ← pow_add]
  have hunits : t.toRat * unitsPerOne = t.units := by
    rw [toRat_eq, div_mul_cancel₀ _ ratCast_unitsPerOne_pos.ne']
  have hscale (a : ℚ) (e : ℕ) : ((2 ^ e : ℤ) : ℚ) < a * 2 ^ e ↔ 1 < a := by
    rw [Int.cast_pow, Int.cast_ofNat, lt_mul_iff_one_lt_left (pow_pos two_pos e)]
  have hleft : 1 < overflowBound * t.toRat ↔ 2 ^ 104 < (2 ^ 54 - 1) * t.units := by
    have hscaled : overflowBound * t.toRat * 2 ^ 104 = ((2 ^ 54 - 1) * t.units : ℤ) := by
      push_cast
      rw [← hunits, hone, hbound]
      generalize (2 : ℚ) ^ 970 = p
      ring
    rw [← hscale (overflowBound * t.toRat) 104, hscaled, Int.cast_lt]
  have hright : 1 < t.toRat * 2 ^ 1024 ↔ 2 ^ 50 < t.units := by
    rw [← hscale (t.toRat * 2 ^ 1024) 50, mul_assoc, ← hone', hunits, Int.cast_lt]
  rw [div_lt_iff₀ hpos, div_lt_iff₀ (pow_pos two_pos _), hleft, hright]
  omega

theorem isFinite_one_div_iff (ht : t.isFinite) (hpos : 0 < t.toRat) :
    (one.div t).isFinite ↔ 1 / 2 ^ 1024 < t.toRat := by
  rw [(roundsTo_one_div ht hpos).isFinite_iff, abs_of_pos (one_div_pos.mpr hpos),
    one_div_lt_overflowBound_iff hpos]

end Binary64

open Binary64

/-! ### Logarithms -/

/-- The logarithm of a finite number above one is rounded up to at least one. -/
theorem logarithmCeiling_mem {x : Binary64} (hfin : x.isFinite) (hx : 1 < x.toRat) :
    1 ≤ logarithmCeiling x ∧ logarithmCeiling x ≤ 1024 := by
  have hslack : logarithmSlack 0 = 0 := rfl
  have hlower : 1023 * 2 ^ 52 < x.magnitude := by
    have hone : one.ordinal = 1023 * 2 ^ 52 := by decide
    rw [← toRat_one, toRat_lt_iff, hone] at hx
    rw [← natAbs_ordinal]
    omega
  have hupper : x.magnitude < 2047 * 2 ^ 52 := isFinite_iff_magnitude.mp hfin
  simp only [logarithmCeiling]
  split
  · rename_i hle
    by_cases hk : x.magnitude / 2 ^ 52 - 1023 = 0
    · rw [hk, hslack] at hle
      omega
    · omega
  · omega

/-! ### The number of trials -/

/-- A tolerance has a number of trials if its reciprocal is finite, and this is one at least. -/
theorem checkedTrialCount_eq (h : Settings.admitsTolerance t = true) :
    checkedTrialCount t = if 1 / 2 ^ 1024 < t.toRat then .ok (logarithmCeiling (one.div t))
      else .error (.unworded .overflow) := by
  obtain ⟨ht, hpos, -⟩ := toRat_of_admitsTolerance h
  have hfin := isFinite_one_div_iff ht hpos
  rw [Settings.admitsTolerance] at h
  rw [checkedTrialCount, if_pos h, trialCount]
  by_cases hlt : 1 / 2 ^ 1024 < t.toRat
  · simp only [hfin.mpr hlt, hlt, if_true]
  · simp only [mt hfin.mp hlt, hlt, if_false]
    rfl

theorem exists_checkedTrialCount (h : Settings.admitsTolerance t = true)
    (hlt : 1 / 2 ^ 1024 < t.toRat) :
    ∃ k, checkedTrialCount t = .ok k ∧ 1 ≤ k ∧ k ≤ 1024 := by
  obtain ⟨ht, hpos, -⟩ := toRat_of_admitsTolerance h
  have hfin := (isFinite_one_div_iff ht hpos).mpr hlt
  refine ⟨_, ?_, logarithmCeiling_mem hfin (one_lt_toRat_one_div h hfin)⟩
  rw [checkedTrialCount_eq h, if_pos hlt]

/-- The number of trials for a tolerance that is given is the one for that tolerance in the
settings. -/
theorem Catalogue.trialsFor_double (h : Settings.admitsTolerance t = true) :
    trialsFor (.double t) = checkedTrialCount t := by
  obtain ⟨ht, hpos, hlt⟩ := toRat_of_admitsTolerance h
  have hmagnitude : t.magnitude ≠ 0 := magnitude_ne_zero_of_pos hpos
  have hbelow : (Quantity.exact 0).less (.double t) = true := by
    simp only [Quantity.less, ht, if_true, decide_eq_true_eq, hpos]
  have habove : (Quantity.double t).less (.exact 1) = true := by
    simp only [Quantity.less, ht, if_true, decide_eq_true_eq, hlt]
  rw [Settings.admitsTolerance] at h
  have hread : (Value.double t).quantity = .ok (.double t) := rfl
  rw [checkedTrialCount, if_pos h, trialsFor, hread, ok_bind, hbelow, habove]
  simp [Quantity.toDouble, hmagnitude]

/-! ### Searches -/

namespace Search

variable {σ : Surroundings} {d : Draws} {n k : ℕ}

/-- The witness of the next trial. -/
def nextWitness (d : Draws) (n : ℕ) : ℕ := (d.uniform 2 (n - 2)).1.toNat

/-- **A series of trials makes the first one**, and if that speaks against a prime, then the series
does. -/
theorem meets_repeatedTrials_succ (hn : 4 ≤ n) (k : ℕ) :
    Meets (repeatedTrials n (k + 1)) σ d
      (fun v d' => d.taken < d'.taken ∧ (v = .veryProbablyPrime →
        ExactNumerics.strongTrial n (nextWitness d n) = .probablyPrime))
      fun _ _ => False := by
  have hfirst : Meets (Search.strongTrial n) σ d
      (fun v d' => v = ExactNumerics.strongTrial n (nextWitness d n) ∧ d' = (d.uniform 2 (n - 2)).2)
      fun _ _ => False :=
    .of_run fun seen => ⟨_, _, _, strongTrial_run hn _, .uniform d 2 (n - 2), rfl, rfl⟩
  refine hfirst.bind ?_
  rintro v d' - ⟨rfl, rfl⟩
  have htaken : d.taken < (d.uniform 2 (n - 2)).2.taken := Nat.lt_succ_self _
  refine .ite (fun hpasses => ?_) fun hne => .pure ⟨htaken, fun hv => ?_⟩
  · exact Meets.weaken (returns_repeatedTrials hn k)
      (fun v d'' hlead _ => ⟨htaken.trans_le hlead.taken, fun _ => hpasses⟩) fun _ _ _ h => h
  · exact absurd hv (strongTrial_ne_veryProbablyPrime n _)

/-- The number of trials is that for the tolerance of the settings, and nothing is drawn for it. -/
theorem meets_trialCount :
    Meets trialCount σ d
      (fun k d' => checkedTrialCount σ.settings.tolerance = .ok k ∧ d' = d)
      fun f d' => checkedTrialCount σ.settings.tolerance = .error f ∧ d' = d := by
  refine Meets.bind (Q := fun s d' => s = σ.settings ∧ d' = d) (.settings ⟨rfl, rfl⟩) ?_
  rintro s d' - ⟨rfl, rfl⟩
  split
  · exact .pure ⟨by assumption, rfl⟩
  · exact .throw ⟨by assumption, rfl⟩

/-- What is known of the trials of `n` from the source `d`: they were made, and the first one is in
favour of a prime if the answer is. -/
structure FirstTrialCounts (n : ℕ) (d : Draws) (b : Bool) (d' : Draws) : Prop where
  /-- A witness was drawn. -/
  taken_lt : d.taken < d'.taken
  /-- The trial with that witness decides against a prime. -/
  passes : b = true → ExactNumerics.strongTrial n (nextWitness d n) = .probablyPrime

/-- **The trials of a number** either are made or fail for want of a finite reciprocal. -/
theorem meets_passesTrials (hn : 4 ≤ n) :
    Meets (passesTrials n) σ d
      (fun b d' => 1 / 2 ^ 1024 < σ.settings.tolerance.toRat ∧ FirstTrialCounts n d b d')
      fun f d' => σ.settings.tolerance.toRat ≤ 1 / 2 ^ 1024 ∧ f = .unworded .overflow ∧ d' = d := by
  have hadmitted := σ.settings.tolerance_admitted
  have hcount := checkedTrialCount_eq hadmitted
  by_cases hlt : 1 / 2 ^ 1024 < σ.settings.tolerance.toRat
  · obtain ⟨k, hk, hpos, -⟩ := exists_checkedTrialCount hadmitted hlt
    obtain ⟨k, rfl⟩ := Nat.exists_eq_add_of_le' hpos
    refine Meets.bind (meets_trialCount.weaken (Q := fun i d' => i = k + 1 ∧ d' = d) ?_ ?_) ?_
    · rintro i d' - ⟨hi, rfl⟩
      exact ⟨Except.ok.inj (hi.symm.trans hk), rfl⟩
    · rintro f d' - ⟨hf, -⟩
      rw [hk] at hf
      simp at hf
    · rintro i d' - ⟨rfl, rfl⟩
      refine Meets.bind ((meets_repeatedTrials_succ hn k).weaken (fun v d'' _ h => h) ?_) ?_
      · exact fun _ _ _ => False.elim
      · rintro v d'' - ⟨htaken, hpasses⟩
        exact .pure ⟨hlt, htaken, fun hv => hpasses (of_decide_eq_true hv)⟩
  · rw [if_neg hlt] at hcount
    refine Meets.bind (meets_trialCount.weaken (Q := fun _ _ => False) ?_ ?_) ?_
    · rintro i d' - ⟨hi, -⟩
      rw [hcount] at hi
      simp at hi
    · rintro f d' - ⟨hf, rfl⟩
      rw [hcount] at hf
      exact ⟨not_lt.mp hlt, (Except.error.inj hf).symm, rfl⟩
    · exact fun _ _ _ => False.elim

/-- Past the table, primality is decided by trials. -/
theorem meets_isPrime_of_limit_le {Q : Bool → Draws → Prop} {E : Failure → Draws → Prop}
    (hn : 4 ≤ n) (hlimit : σ.table.limit ≤ n) (h : Meets (passesTrials n) σ d Q E) :
    Meets (isPrime n) σ d Q E := by
  refine Meets.bind (Q := fun t d' => t = σ.table ∧ d' = d) (.table ⟨rfl, rfl⟩) ?_
  rintro t d' - ⟨rfl, rfl⟩
  refine .ite (fun hcov => ?_) fun _ => .ite (fun hlt => ?_) fun _ => h
  · exact absurd (of_decide_eq_true hcov) (not_lt.mpr hlimit)
  · exact absurd hlt (not_lt.mpr hn)

end Search

open Search

/-- **Which tolerances have a number of trials.** For those there is at least one trial, both in the
series and in the answer about the primality of a number past the table. The others fail, and so
does every answer for which trials would be needed. -/
theorem checkedTrialCount_pos_iff (h : Settings.admitsTolerance t = true) :
    ((∃ k, Catalogue.trialsFor (.double t) = .ok k ∧ 1 ≤ k ∧ k ≤ 1024) ↔ 1 / 2 ^ 1024 < t.toRat) ∧
      (t.toRat ≤ 1 / 2 ^ 1024 →
        Catalogue.trialsFor (.double t) = .error (.unworded .overflow)) ∧
      Catalogue.trialsFor (.double t) = checkedTrialCount t ∧
      ∀ (σ : Surroundings) (n : ℤ) (p : Progress), σ.settings.tolerance = t → 4 ≤ n.natAbs →
        σ.table.limit ≤ n.natAbs →
          (1 / 2 ^ 1024 < t.toRat → ∃ b p', (isPrimeInteger n).run σ p = (.ok b, p') ∧
            FirstTrialCounts n.natAbs p.draws b p'.draws) ∧
          (t.toRat ≤ 1 / 2 ^ 1024 → ∃ p',
            (isPrimeInteger n).run σ p = (.error (.unworded .overflow), p') ∧
              p'.draws = p.draws) := by
  have hcount := checkedTrialCount_eq h
  have herror (hle : t.toRat ≤ 1 / 2 ^ 1024) :
      checkedTrialCount t = .error (.unworded .overflow) := by
    rw [hcount, if_neg (not_lt.mpr hle)]
  rw [Catalogue.trialsFor_double h]
  refine ⟨⟨fun ⟨k, hk, _⟩ => ?_, exists_checkedTrialCount h⟩, herror, rfl, ?_⟩
  · by_contra hle
    rw [herror (not_lt.mp hle)] at hk
    simp at hk
  · rintro σ n p rfl hn hlimit
    have hmeets := meets_isPrime_of_limit_le (d := p.draws) hn hlimit (meets_passesTrials hn)
    rcases hmeets.exists_run p.footprint with
      ⟨b, p', hrun, -, hlt, hb⟩ | ⟨f, p', hrun, -, hle, rfl, hdraws⟩
    · exact ⟨fun _ => ⟨b, p', hrun, hb⟩, fun hle => absurd hlt (not_lt.mpr hle)⟩
    · exact ⟨fun hlt => absurd hlt (not_lt.mpr hle), fun _ => ⟨p', hrun, hdraws⟩⟩

/-- The default settings with another tolerance, and a table that ends before two. -/
def Search.Surroundings.ofTolerance (t : Binary64) (h : Settings.admitsTolerance t = true) :
    Surroundings :=
  ⟨{ (default : Settings) with tolerance := t, tolerance_admitted := h },
    PrimeTable.fresh 2 le_rfl, none⟩

theorem admitsTolerance_previous_one : Settings.admitsTolerance one.previous = true := by decide

theorem admitsTolerance_leastSubnormal : Settings.admitsTolerance leastSubnormal = true := by
  decide

/-- Even the greatest tolerance asks for a trial, so that nine may be found to be no prime past a
table that ends before two. -/
theorem checkedTrialCount_pos_iff_previous_one :
    Settings.admitsTolerance one.previous = true ∧ 1 / 2 ^ 1024 < one.previous.toRat ∧
      (∃ k, Catalogue.trialsFor (.double one.previous) = .ok k ∧ 1 ≤ k ∧ k ≤ 1024) ∧
      ∃ b p', (isPrimeInteger (-9)).run (.ofTolerance _ admitsTolerance_previous_one)
          ⟨Draws.ofScript [], {}⟩ = (.ok b, p') ∧
        FirstTrialCounts 9 (Draws.ofScript []) b p'.draws := by
  have hadmits := admitsTolerance_previous_one
  obtain ⟨ht, hpos, -⟩ := toRat_of_admitsTolerance hadmits
  have hlt := (isFinite_one_div_iff ht hpos).mp (by decide +kernel)
  obtain ⟨hcount, -, -, hsearch⟩ := checkedTrialCount_pos_iff hadmits
  obtain ⟨b, p', hrun⟩ := (hsearch (.ofTolerance _ admitsTolerance_previous_one) (-9)
    ⟨Draws.ofScript [], {}⟩ rfl (by decide) (by decide)).1 hlt
  exact ⟨hadmits, hlt, hcount.mpr hlt, b, p', hrun⟩

/-- **The least tolerance has no number of trials**, although the logarithm of its reciprocal is
`1074`. With it in the settings there is no answer about five past a table that ends before two. -/
theorem not_exists_trialCount_leastSubnormal :
    Settings.admitsTolerance leastSubnormal = true ∧ leastSubnormal.toRat = 1 / 2 ^ 1074 ∧
      Catalogue.trialsFor (.double leastSubnormal) = .error (.unworded .overflow) ∧
      (¬ ∃ k, Catalogue.trialsFor (.double leastSubnormal) = .ok k ∧ 1 ≤ k) ∧
      ((isPrimeInteger 5).run (.ofTolerance _ admitsTolerance_leastSubnormal)
        ⟨Draws.ofScript [], {}⟩).1 = .error (.unworded .overflow) := by
  have herror : Catalogue.trialsFor (.double leastSubnormal) = .error (.unworded .overflow) := by
    decide +kernel
  have hunits : leastSubnormal.units = 1 := by decide
  refine ⟨admitsTolerance_leastSubnormal, ?_, herror, ?_, by decide +kernel⟩
  · rw [toRat_eq, hunits, Int.cast_one, ratCast_unitsPerOne]
  · rintro ⟨k, hk, -⟩
    rw [herror] at hk
    simp at hk

end ExactNumerics
