import ExactNumerics.Factor.Splitting
import ExactNumerics.Proofs.Factor.Rho
import ExactNumerics.Proofs.Factor.TrialDivision

/-!
# Factorization by splitting

Working off a stack keeps the product: what is found times what is on the stack is the number that
was to be factored. A power that is taken from the stack is replaced by powers with the same
product, whether or not the answer about its base was right, so a wrong answer can leave a composite
among the factors and do no other harm.

The stack shrinks in the sense of the steps that it still needs. One is enough for the base one,
and for a base from two on, one less than three times its binary logarithm: a factor of at least
two takes one off the logarithm of what is left, and splitting shares the logarithm out and gains
the one that is subtracted twice. So the steps that are granted at the start do not run out.

What is left as a reason to give up is a part that could not be split, and an integer with too many
digits for a note. The number itself is noted before anything else is done with it.

## Main definitions

* `stepsFor m` — a number of steps that is enough for `m`
* `Reduction` — what one step does with a power
* `WorkingOff` — the state of a stack
* `Unsplit` — a part that could not be split
* `Search.GivesUp` — how a factorization can fail

## Main results

* `Search.meets_reduce` — one step
* `Search.meets_workOff` — a stack is worked off
* `Search.meets_factorBySplitting` — the factorization that is found, or given up
-/

namespace ExactNumerics

/-! ### Steps -/

/-- A number of steps that is enough for `m`. -/
def stepsFor (m : ℕ) : ℕ := if m = 1 then 1 else 3 * Nat.log2 m - 1

/-- A number of steps that is enough for a stack. -/
def stepsForStack (stack : List Power) : ℕ := (stack.map fun f => stepsFor f.base).sum

@[simp] theorem stepsFor_one : stepsFor 1 = 1 := rfl

@[simp] theorem stepsForStack_nil : stepsForStack [] = 0 := rfl

@[simp] theorem stepsForStack_cons (f : Power) (stack : List Power) :
    stepsForStack (f :: stack) = stepsFor f.base + stepsForStack stack := by
  simp [stepsForStack]

@[simp] theorem stepsForStack_append (stack stack' : List Power) :
    stepsForStack (stack ++ stack') = stepsForStack stack + stepsForStack stack' := by
  simp [stepsForStack]

theorem one_le_log2 {m : ℕ} (hm : 2 ≤ m) : 1 ≤ Nat.log2 m :=
  (Nat.le_log2 (by omega)).mpr hm

theorem log2_add_log2_le {a b m : ℕ} (ha : 0 < a) (hb : 0 < b) (h : a * b ≤ m) :
    Nat.log2 a + Nat.log2 b ≤ Nat.log2 m := by
  have hm : m ≠ 0 := by
    have := Nat.mul_pos ha hb
    omega
  rw [Nat.le_log2 hm, pow_add]
  calc 2 ^ Nat.log2 a * 2 ^ Nat.log2 b ≤ a * b :=
        Nat.mul_le_mul (Nat.log2_self_le ha.ne') (Nat.log2_self_le hb.ne')
    _ ≤ m := h

theorem stepsFor_pos {m : ℕ} (hm : 0 < m) : 0 < stepsFor m := by
  unfold stepsFor
  split
  · exact Nat.one_pos
  · have := one_le_log2 (m := m) (by omega)
    omega

/-- A product of proper factors needs more steps than its factors together. -/
theorem stepsFor_add_lt {a b m : ℕ} (ha : 2 ≤ a) (hb : 2 ≤ b) (h : a * b ≤ m) :
    stepsFor a + stepsFor b < stepsFor m := by
  have hlog := log2_add_log2_le (by omega) (by omega) h
  have hloga := one_le_log2 ha
  have hlogb := one_le_log2 hb
  have hm : 2 ≤ m := (Nat.mul_le_mul ha (by omega : 1 ≤ b)).trans h
  simp only [stepsFor, show a ≠ 1 by omega, show b ≠ 1 by omega, show m ≠ 1 by omega, if_false]
  omega

theorem stepsFor_le_splittingSteps (n : ℕ) : stepsFor n ≤ Search.splittingSteps n := by
  unfold stepsFor Search.splittingSteps
  split <;> omega

/-! ### One step -/

/-- What one step does with `m ^ scale`: it finds the factors and leaves the rest pending. -/
structure Reduction (limit m scale : ℕ) (factors : Factorization) (pending : List Power) :
    Prop where
  /-- Nothing is lost. -/
  value_mul : factors.value * Factorization.value pending = m ^ scale
  /-- The factors are proper powers. -/
  factor_proper : ∀ f ∈ factors, 2 ≤ f.base ∧ 0 < f.exponent
  /-- Inside the table they are powers of primes. -/
  prime_of_lt : m < limit → ∀ f ∈ factors, f.base.Prime
  /-- What is pending can be reduced in turn. -/
  pending_pos : ∀ f ∈ pending, 0 < f.base ∧ 0 < f.exponent
  /-- It needs fewer steps. -/
  steps_lt : stepsForStack pending < stepsFor m

namespace Reduction

variable {limit m scale : ℕ}

/-- One contributes nothing. -/
theorem one (limit scale : ℕ) : Reduction limit 1 scale [] [] where
  value_mul := by simp
  factor_proper := by simp
  prime_of_lt := by simp
  pending_pos := by simp
  steps_lt := by simp

/-- A number that was answered to be prime is a factor. -/
theorem whole (hm : 2 ≤ m) (hs : 0 < scale) (hprime : m < limit → m.Prime) :
    Reduction limit m scale [⟨m, scale⟩] [] where
  value_mul := by simp
  factor_proper := by simpa using ⟨hm, hs⟩
  prime_of_lt := by simpa using hprime
  pending_pos := by simp
  steps_lt := stepsFor_pos (by omega)

/-- A prime divisor is peeled off. -/
theorem peel {q : ℕ} (hq : q.Prime) (hdvd : q ∣ m) (hm : 0 < m) (hne : m ≠ q) (hs : 0 < scale) :
    Reduction limit m scale [⟨q, scale⟩] [⟨m / q, scale⟩] where
  value_mul := by
    rw [Factorization.value_singleton, Factorization.value_singleton, ← mul_pow,
      Nat.mul_div_cancel' hdvd]
  factor_proper := by simpa using ⟨hq.two_le, hs⟩
  prime_of_lt := by simpa using fun _ => hq
  pending_pos := by simpa using ⟨⟨hq.pos, Nat.le_of_dvd hm hdvd⟩, hs⟩
  steps_lt := by
    obtain ⟨c, rfl⟩ := hdvd
    have hc : 2 ≤ c := by
      rcases c with _ | _ | c
      · simp at hm
      · simp at hne
      · omega
    have hlt := stepsFor_add_lt hq.two_le hc le_rfl
    simp only [stepsForStack_cons, stepsForStack_nil, Nat.mul_div_cancel_left c hq.pos]
    omega

/-- A perfect power is replaced by its root. -/
theorem root (hm : 2 ≤ m) (hs : 0 < scale) (he : 1 < (asPower m).exponent) :
    Reduction limit m scale [] [⟨(asPower m).base, scale * (asPower m).exponent⟩] where
  value_mul := by
    rw [Factorization.value_nil, one_mul, Factorization.value_singleton, mul_comm scale, pow_mul,
      asPower_pow]
  factor_proper := by simp
  prime_of_lt := by simp
  pending_pos := by
    have hbase := two_le_asPower_base hm
    simp only [List.mem_singleton, forall_eq]
    exact ⟨by omega, Nat.mul_pos hs (by omega)⟩
  steps_lt := by
    have hbase := two_le_asPower_base hm
    have hlt := stepsFor_add_lt hbase hbase (asPower_base_mul_self_le hm he)
    simp only [stepsForStack_cons, stepsForStack_nil]
    omega

/-- A proper divisor splits it in two. -/
theorem split {g : ℕ} (hm : 0 < m) (hs : 0 < scale) (hg : ProperDivisor m g) :
    Reduction limit m scale [] [⟨m / g, scale⟩, ⟨g, scale⟩] where
  value_mul := by
    rw [Factorization.value_nil, one_mul, Factorization.value_cons, Factorization.value_singleton,
      ← mul_pow, Nat.div_mul_cancel hg.dvd]
  factor_proper := by simp
  prime_of_lt := by simp
  pending_pos := by
    have hone := hg.one_lt
    simp only [List.forall_mem_cons, List.not_mem_nil, false_implies, implies_true, and_true]
    exact ⟨⟨Nat.div_pos hg.lt.le (by omega), hs⟩, by omega, hs⟩
  steps_lt := by
    obtain ⟨c, rfl⟩ := hg.dvd
    have hone := hg.one_lt
    have hc : 2 ≤ c := by
      rcases c with _ | _ | c
      · simp at hm
      · simpa using hg.lt
      · omega
    have hlt := stepsFor_add_lt hc hone (mul_comm c g).le
    simpa [Nat.mul_div_cancel_left c (by omega : 0 < g)] using hlt

end Reduction

/-! ### A stack -/

/-- The state of a stack on which `N` is factored. -/
structure WorkingOff (limit N : ℕ) (stack : List Power) (found : Factorization) : Prop where
  /-- Nothing is lost. -/
  value_mul : found.value * Factorization.value stack = N
  /-- There is something to factor. -/
  pos : 0 < N
  /-- Every power on the stack can be reduced. -/
  stack_pos : ∀ f ∈ stack, 0 < f.base ∧ 0 < f.exponent
  /-- The factors are proper powers. -/
  found_proper : ∀ f ∈ found, 2 ≤ f.base ∧ 0 < f.exponent
  /-- Inside the table they are powers of primes. -/
  prime_of_lt : N < limit → ∀ f ∈ found, f.base.Prime

namespace WorkingOff

variable {limit N : ℕ} {top : Power} {stack : List Power} {found : Factorization}

theorem start (hN : 0 < N) : WorkingOff limit N [⟨N, 1⟩] [] where
  value_mul := by simp
  pos := hN
  stack_pos := by simpa using hN
  found_proper := by simp
  prime_of_lt := by simp

/-- A base on the stack divides the number. -/
theorem dvd (h : WorkingOff limit N (top :: stack) found) : top.base ∣ N := by
  have htop := (h.stack_pos top List.mem_cons_self).2
  rw [← h.value_mul]
  exact (Factorization.base_dvd_value List.mem_cons_self htop).mul_left _

/-- The power on top is reduced. -/
theorem step {factors : Factorization} {pending : List Power}
    (h : WorkingOff limit N (top :: stack) found)
    (hr : Reduction limit top.base top.exponent factors pending) :
    WorkingOff limit N (pending ++ stack) (found ++ factors) where
  value_mul := by
    rw [Factorization.value_append, Factorization.value_append, ← h.value_mul,
      Factorization.value_cons, ← hr.value_mul]
    ac_rfl
  pos := h.pos
  stack_pos := by
    rw [List.forall_mem_append]
    exact ⟨hr.pending_pos, fun f hf => h.stack_pos f (List.mem_cons_of_mem top hf)⟩
  found_proper := by
    rw [List.forall_mem_append]
    exact ⟨h.found_proper, hr.factor_proper⟩
  prime_of_lt hN := by
    rw [List.forall_mem_append]
    exact ⟨h.prime_of_lt hN, hr.prime_of_lt ((Nat.le_of_dvd h.pos h.dvd).trans_lt hN)⟩

/-- Nothing is on the stack any more. -/
theorem done (h : WorkingOff limit N [] found) : FactorizationAnswer limit N found.merge where
  increasing := found.pairwise_merge
  two_le_base f hf := by
    obtain ⟨g, hg, hbase, -⟩ := Factorization.mem_merge hf
    exact hbase ▸ (h.found_proper g hg).1
  exponent_pos f hf := by
    obtain ⟨g, hg, -, hexp⟩ := Factorization.mem_merge hf
    exact (h.found_proper g hg).2.trans_le hexp
  value_eq := by
    rw [found.value_merge, ← h.value_mul, Factorization.value_nil, mul_one]
  prime_of_lt hN f hf := by
    obtain ⟨g, hg, hbase, -⟩ := Factorization.mem_merge hf
    exact hbase ▸ h.prime_of_lt hN g hg

end WorkingOff

/-! ### The search -/

/-- The part `m` of `N` could not be split: it is a composite, and the last draws from `d` to `d'`
were as many failed seeds as there are attempts. -/
structure Unsplit (attempts N m : ℕ) (d d' : Draws) : Prop where
  /-- It is a part of the number. -/
  dvd : m ∣ N
  /-- It is not one. -/
  one_lt : 1 < m
  /-- It is not prime. -/
  not_prime : ¬ m.Prime
  /-- The attempts at it failed one after the other. -/
  failed : FailedSeeds m attempts d d'

theorem Unsplit.of_leadsTo {attempts N m : ℕ} {d₀ d d' : Draws} (h₀ : d₀.LeadsTo d)
    (h : Unsplit attempts N m d d') : Unsplit attempts N m d₀ d' :=
  ⟨h.dvd, h.one_lt, h.not_prime, h.failed.of_leadsTo h₀⟩

theorem Unsplit.of_dvd {attempts N M m : ℕ} {d d' : Draws} (h : Unsplit attempts N m d d')
    (hdvd : N ∣ M) : Unsplit attempts M m d d' :=
  ⟨h.dvd.trans hdvd, h.one_lt, h.not_prime, h.failed⟩

namespace Search

variable {σ : Surroundings} {d : Draws}

/-- The failure of a factorization of `N` that starts at `d`: a part of `N` is unsplit, or there was
something to note that has an integer with too many digits. -/
def GivesUp (σ : Surroundings) (N : ℕ) (d : Draws) (f : Failure) (d' : Draws) : Prop :=
  (∃ m, f = .unsplit m σ.settings.splitAttempts ∧ Unsplit σ.settings.splitAttempts N m d d') ∨
    f = .unworded .value ∧ ¬ NotesFit σ N

theorem GivesUp.of_leadsTo {N : ℕ} {d₀ d' : Draws} {f : Failure} (h₀ : d₀.LeadsTo d)
    (h : GivesUp σ N d f d') : GivesUp σ N d₀ f d' :=
  h.imp_left fun ⟨m, hf, hm⟩ => ⟨m, hf, hm.of_leadsTo h₀⟩

/-- To give up on a part is to give up on the whole. -/
theorem GivesUp.of_dvd {N M : ℕ} {d' : Draws} {f : Failure} (h : GivesUp σ N d f d')
    (hM : 0 < M) (hdvd : N ∣ M) : GivesUp σ M d f d' :=
  h.imp (fun ⟨m, hf, hm⟩ => ⟨m, hf, hm.of_dvd hdvd⟩)
    fun ⟨hf, hnot⟩ => ⟨hf, fun hfit => hnot (hfit.mono (Nat.le_of_dvd hM hdvd))⟩

/-- **One step.** -/
theorem meets_reduce (hσ : σ.settings.HasTrialCount) {m scale : ℕ} (hm : 0 < m) (hs : 0 < scale) :
    Meets (reduce m scale) σ d
      (fun r _ => Reduction σ.table.limit m scale r.1 r.2) (GivesUp σ m d) := by
  unfold reduce
  refine .ite (fun hone => .pure (hone ▸ .one _ scale)) fun hne => ?_
  refine (returns_isPrime hσ m).bind fun b d' hlead hb => ?_
  refine .ite (fun htrue => .pure ?_) fun hfalse => ?_
  · exact .whole (by omega) hs fun hlt => (hb.exact (.inl hlt)).mp htrue
  have hcomposite : ¬ m.Prime := fun h => hfalse (hb.of_prime h)
  have hpeel : ∀ q : ℕ, q.Prime → m % q = 0 →
      Reduction σ.table.limit m scale [⟨q, scale⟩] [⟨m / q, scale⟩] := fun q hq hmod =>
    .peel hq (Nat.dvd_of_mod_eq_zero hmod) hm (fun heq => hcomposite (heq ▸ hq)) hs
  refine .ite (fun hmod => .pure (hpeel 2 Nat.prime_two hmod)) fun _ => ?_
  refine .ite (fun hmod => .pure (hpeel 3 Nat.prime_three hmod)) fun _ => ?_
  refine .ite (fun he => .pure (.root (by omega) hs he)) fun _ => ?_
  refine Meets.bind ((meets_split hm).weaken (fun _ _ _ h => h) ?_)
    fun g d'' _ hg => .pure (.split hm hs hg)
  rintro f d'' - (⟨rfl, hfailed⟩ | hnote)
  · exact .inl ⟨m, rfl, dvd_rfl, by omega, hcomposite, hfailed.of_leadsTo hlead⟩
  · exact .inr hnote

/-- **A stack is worked off.** As every step leaves fewer steps to do, they do not run out. -/
theorem meets_workOff (hσ : σ.settings.HasTrialCount) {N steps : ℕ} {stack : List Power}
    {found : Factorization} (h : WorkingOff σ.table.limit N stack found)
    (hsteps : stepsForStack stack ≤ steps) :
    Meets (workOff steps stack found) σ d
      (fun fs _ => WorkingOff σ.table.limit N [] fs) (GivesUp σ N d) := by
  induction steps generalizing stack found d with
  | zero =>
    cases stack with
    | nil => exact .pure h
    | cons top stack =>
      have hpos := stepsFor_pos (h.stack_pos top List.mem_cons_self).1
      rw [stepsForStack_cons] at hsteps
      omega
  | succ steps ih =>
    cases stack with
    | nil => exact .pure h
    | cons top stack =>
      obtain ⟨hbase, hexp⟩ := h.stack_pos top List.mem_cons_self
      rw [workOff]
      refine Meets.bind ((meets_reduce hσ hbase hexp).weaken (fun _ _ _ hr => hr) ?_) ?_
      · exact fun f d' _ hf => hf.of_dvd h.pos h.dvd
      · rintro ⟨factors, pending⟩ d' hlead hr
        have hlt : stepsForStack pending < stepsFor top.base := hr.steps_lt
        have hrest : stepsForStack (pending ++ stack) ≤ steps := by
          rw [stepsForStack_append]
          rw [stepsForStack_cons] at hsteps
          omega
        exact (ih (h.step hr) hrest).weaken (fun _ _ _ h' => h') fun f d'' _ hf =>
          hf.of_leadsTo hlead

theorem log2_add_one_le {n : ℕ} (hn : 0 < n) : Nat.log2 n + 1 ≤ n :=
  (Nat.log2_lt hn.ne').mpr Nat.lt_two_pow_self

/-- The number itself is noted first, with something smaller. -/
theorem meets_note_number {N : ℕ} (hN : 0 < N) :
    Meets (note [N, (Nat.log2 N + 1 : ℕ)]) σ d (fun _ d' => σ.digits.admits N ∧ d' = d)
      fun f d' => f = .unworded .value ∧ ¬ σ.digits.admits N ∧ d' = d := by
  refine (Meets.note fun hfits => ?_).weaken
    (fun _ _ _ h => ⟨h.1 N List.mem_cons_self, h.2⟩) fun _ _ _ h => h
  rw [List.forall_mem_cons, List.forall_mem_singleton]
  exact ⟨hfits, DigitLimit.admits_of_natAbs_le hfits (log2_add_one_le hN)⟩

/-- **The factorization by splitting.** It is found, or given up; a number with too many digits is
given up at once. -/
theorem meets_factorBySplitting (hσ : σ.settings.HasTrialCount) {N : ℕ} (hN : 0 < N) :
    Meets (factorBySplitting N) σ d
      (fun fs _ => σ.digits.admits N ∧ FactorizationAnswer σ.table.limit N fs) fun f d' =>
        GivesUp σ N d f d' ∧ (¬ σ.digits.admits N → f = .unworded .value ∧ d' = d) := by
  have hsteps : stepsForStack [⟨N, 1⟩] ≤ splittingSteps N := by
    simpa using stepsFor_le_splittingSteps N
  refine ((meets_note_number hN).weaken (fun _ _ _ h => h) ?_).bind ?_
  · rintro f d' - ⟨rfl, hnot, rfl⟩
    exact ⟨.inr ⟨rfl, fun hfit => hnot hfit.1⟩, fun _ => ⟨rfl, rfl⟩⟩
  · rintro - d' - ⟨hfits, rfl⟩
    exact ((meets_workOff hσ (.start hN) hsteps).weaken (fun _ _ _ h => h) fun f d' _ hf =>
      ⟨hf, fun hnot => absurd hfits hnot⟩).bind fun fs d' _ h => .pure ⟨hfits, h.done⟩

end Search

end ExactNumerics
