import ExactNumerics.Catalogue.Primes
import ExactNumerics.Proofs.Factor.Rho
import ExactNumerics.Proofs.Prime.Primality

/-!
# What a verdict of trials is worth

A trial finds a divisor in one of two ways. The witness may share a factor with `n`, and then their
greatest common divisor is proper because the witness is less than `n`. Or the squaring may step
from some residue `c` to `1`. It stops at the first `1`, so `c` is not `1` itself, and a step from
`-1` is the verdict of a probable prime. So `c` is a square root of one other than `1` and `-1`:
the product `(c + 1) * (c - 1)` is a multiple of `n` and neither factor is, hence `n` shares a
proper divisor with `c + 1`.

No case of this asks whether `n` is odd. For an even `n` nothing is squared, and the second way
does not come up.

## Main definitions

* `Verdict.divisor?` — the divisor that a verdict carries
* `NontrivialRoot n c` — a square root of one that splits `n`
* `SoundVerdict n v` — what is known of `n` from the verdict `v`

## Main results

* `NontrivialRoot.properDivisor` — such a root splits `n`
* `strongTrial_cases` — how a trial can end
* `soundVerdict_strongTrial` — one trial, with any witness
* `Catalogue.verdicts_sound` — drawn witnesses, and series of trials
-/

namespace ExactNumerics

/-! ### Verdicts -/

/-- The divisor that a verdict carries. -/
def Verdict.divisor? : Verdict → Option ℕ
  | divisor d => some d
  | _ => none

/-- What is known of `n` from the verdict `v`. -/
structure SoundVerdict (n : ℕ) (v : Verdict) : Prop where
  /-- A divisor that comes with the verdict is proper. -/
  proper : ∀ d, v.divisor? = some d → ProperDivisor n d
  /-- A prime is not called composite. -/
  composite : v = .composite → ¬ n.Prime
  /-- A divisor only comes with the verdict that there is one. -/
  divisor?_eq_none : (∀ d, v ≠ .divisor d) → v.divisor? = none

theorem Verdict.divisor?_eq_some {v : Verdict} {d : ℕ} : v.divisor? = some d ↔ v = .divisor d := by
  cases v <;> simp [Verdict.divisor?]

theorem Verdict.divisor?_eq_none {v : Verdict} (h : ∀ d, v ≠ .divisor d) : v.divisor? = none := by
  cases v with
  | divisor d => exact absurd rfl (h d)
  | _ => rfl

variable {n : ℕ} {v : Verdict}

theorem soundVerdict_divisor {d : ℕ} (h : ProperDivisor n d) : SoundVerdict n (.divisor d) where
  proper := by
    intro e he
    obtain rfl := Option.some.inj he
    exact h
  composite := by simp
  divisor?_eq_none := Verdict.divisor?_eq_none

/-- A verdict without a divisor is sound if it does not call a prime composite. -/
theorem soundVerdict_of_ne_divisor (h : ∀ d, v ≠ .divisor d) (hc : v = .composite → ¬ n.Prime) :
    SoundVerdict n v where
  proper := by
    intro d hd
    exact absurd (Verdict.divisor?_eq_some.mp hd) (h d)
  composite := hc
  divisor?_eq_none := Verdict.divisor?_eq_none

/-! ### Square roots of one -/

/-- The residue `c` modulo `n` is a square root of one other than `1` and `-1`. -/
structure NontrivialRoot (n c : ℕ) : Prop where
  /-- It is a residue. -/
  lt : c < n
  /-- It is not `1`. -/
  ne_one : c ≠ 1
  /-- It is not `-1`. -/
  ne_pred : c ≠ n - 1
  /-- Its square is `1`. -/
  sq : c * c % n = 1

/-- **A square root of one other than `1` and `-1`** splits the modulus. -/
theorem NontrivialRoot.properDivisor {c : ℕ} (h : NontrivialRoot n c) :
    ProperDivisor n (Nat.gcd (c + 1) n) := by
  have hlt := h.lt
  have hone := h.ne_one
  have hpred := h.ne_pred
  have hpos : 0 < c := by
    rcases Nat.eq_zero_or_pos c with rfl | hc
    · have := h.sq
      simp at this
    · exact hc
  have hdvd : n ∣ (c + 1) * (c - 1) := by
    have hsq : n ∣ c * c - 1 := by
      rw [← h.sq]
      exact Nat.dvd_sub_mod (c * c)
    rwa [← Nat.mul_self_sub_mul_self_eq, Nat.one_mul]
  refine ⟨?_, ?_, Nat.gcd_dvd_right _ _⟩
  · by_contra hle
    have hcoprime : n.Coprime (c + 1) := by
      have := Nat.gcd_pos_of_pos_left n (by omega : 0 < c + 1)
      rw [Nat.coprime_comm, Nat.Coprime]
      omega
    -- then `n` divides `c - 1`, which is less than `n` and not zero
    have := Nat.le_of_dvd (by omega) (hcoprime.dvd_of_dvd_mul_left hdvd)
    omega
  · -- the divisor is at most `c + 1`, which is less than `n`
    have := Nat.gcd_le_left n (by omega : 0 < c + 1)
    omega

/-! ### One trial -/

/-- **How a trial can end.** A divisor comes from the witness or from a square root of one. -/
theorem strongTrial_cases (hn : 0 < n) (a : ℕ) :
    (1 < a.gcd n ∧ strongTrial n a = .divisor (a.gcd n)) ∨
      strongTrial n a = .probablyPrime ∨ strongTrial n a = .composite ∨
      ∃ c, NontrivialRoot n c ∧ strongTrial n a = .divisor (Nat.gcd (c + 1) n) := by
  by_cases hg : a.Coprime n
  swap
  · exact .inl (strongTrial_of_not_coprime hn hg)
  refine .inr ?_
  rw [strongTrial_of_coprime hg]
  dsimp only
  split
  · exact .inl rfl
  · rename_i h1
    have hb := Nat.mod_lt (a ^ (splitTwos (n - 1)).2) hn
    rcases squareUntilOne_cases hb h1 (splitTwos (n - 1)).1 (a ^ (splitTwos (n - 1)).2 % n) with
      ⟨-, hlast⟩ | ⟨j, -, hne, hnext, heq⟩
    · exact .inr (.inl (if_pos hlast))
    · rw [heq]
      simp only [ne_eq, not_true, if_false]
      split
      · exact .inl rfl
      · rename_i hpred
        refine .inr (.inr ⟨_, ⟨Nat.mod_lt _ hn, hne, hpred, ?_⟩, rfl⟩)
        rw [← Nat.mul_mod, ← pow_add, ← Nat.two_mul, ← pow_succ']
        exact hnext

/-- **One trial is sound** with any witness. -/
theorem soundVerdict_strongTrial {a : ℕ} (hn : 2 < n) (ha : 0 < a) (han : a < n) :
    SoundVerdict n (strongTrial n a) := by
  rcases strongTrial_cases (by omega : 0 < n) a with ⟨hlt, hv⟩ | hv | hv | ⟨c, hc, hv⟩
  · rw [hv]
    exact soundVerdict_divisor
      ⟨hlt, (Nat.gcd_le_left n ha).trans_lt han, Nat.gcd_dvd_right a n⟩
  · rw [hv]
    exact soundVerdict_of_ne_divisor (by simp) (by simp)
  · refine soundVerdict_of_ne_divisor (by simp [hv]) fun _ hprime => ?_
    rw [strongTrial_of_prime hprime hn ha han] at hv
    exact Verdict.noConfusion hv
  · rw [hv]
    exact soundVerdict_divisor hc.properDivisor

/-! ### Drawn witnesses -/

namespace Search

variable {σ : Surroundings} {d : Draws}

theorem returns_strongTrial_sound (hn : 4 ≤ n) :
    Returns (Search.strongTrial n) σ d (SoundVerdict n) := by
  refine (returns_strongTrial hn).meets fun v _ hv => ?_
  obtain ⟨a, h2, han, rfl⟩ := hv
  exact soundVerdict_strongTrial (by omega) (by omega) han

/-- A series of trials takes its verdict from one of them, or has nothing against a prime. -/
theorem returns_repeatedTrials_sound (hn : 4 ≤ n) (k : ℕ) :
    Returns (repeatedTrials n k) σ d (SoundVerdict n) := by
  refine (returns_repeatedTrials hn k).meets fun v _ hv => ?_
  rcases hv with rfl | ⟨a, h2, han, rfl, -⟩
  · exact soundVerdict_of_ne_divisor (by simp) (by simp)
  · exact soundVerdict_strongTrial (by omega) (by omega) han

end Search

namespace Catalogue

open Search

variable {σ : Surroundings} {d : Draws}

theorem meets_trialsOrDefault (tolerance : Value) :
    Meets (trialsOrDefault tolerance) σ d (fun _ _ => True) fun _ _ => True := by
  unfold trialsOrDefault
  split
  · refine Meets.bind (Q := fun _ _ => True) (.settings trivial) fun s d' _ _ => ?_
    split
    · exact .pure trivial
    · exact .throw trivial
  · exact .liftM (fun _ _ => trivial) fun _ _ => trivial

/-- The number of trials may be refused, and nothing else can go wrong. -/
theorem meets_verdictOf (hn : 4 ≤ n) (tolerance : Value) :
    Meets (verdictOf (.integer n) tolerance) σ d (fun v _ => SoundVerdict n v) fun _ _ => True := by
  refine (meets_trialsOrDefault tolerance).bind fun k d' _ _ => ?_
  refine .ite (fun _ => .pure ?_) fun _ => ?_
  · exact soundVerdict_of_ne_divisor (by simp) (by simp)
  · exact (returns_repeatedTrials_sound hn k).meets fun _ _ h => h

/-- **Verdicts are sound.** From four on, a trial with any witness, a trial with a drawn witness,
a series of any number of trials and a series for a tolerance give sound verdicts, and the divisor
of a trial comes from its witness or from a square root of one. -/
theorem verdicts_sound (hn : 4 ≤ n) :
    (∀ a, 2 ≤ a → a < n → SoundVerdict n (ExactNumerics.strongTrial n a) ∧
      ∀ e, ExactNumerics.strongTrial n a = .divisor e →
        e = a.gcd n ∨ ∃ c, NontrivialRoot n c ∧ e = Nat.gcd (c + 1) n) ∧
    (∀ σ p, ∃ v p', (Search.strongTrial n).run σ p = (.ok v, p') ∧ SoundVerdict n v) ∧
    (∀ k σ p, ∃ v p', (repeatedTrials n k).run σ p = (.ok v, p') ∧ SoundVerdict n v) ∧
    ∀ tolerance σ p v p', (verdictOf (.integer n) tolerance).run σ p = (.ok v, p') →
      SoundVerdict n v := by
  refine ⟨fun a h2 han => ⟨soundVerdict_strongTrial (by omega) (by omega) han, ?_⟩,
    fun σ p => (returns_strongTrial_sound hn).exists_run,
    fun k σ p => (returns_repeatedTrials_sound hn k).exists_run,
    fun tolerance σ p v p' hrun => Meets.of_ok (meets_verdictOf hn tolerance) hrun⟩
  intro e he
  rcases strongTrial_cases (by omega : 0 < n) a with ⟨-, hv⟩ | hv | hv | ⟨c, hc, hv⟩ <;>
    rw [hv] at he
  · exact .inl (Verdict.divisor.inj he).symm
  · exact Verdict.noConfusion he
  · exact Verdict.noConfusion he
  · exact .inr ⟨c, hc, (Verdict.divisor.inj he).symm⟩

/-- With the witness fourteen, whose square leaves one, a trial of sixty-five finds five. -/
theorem verdicts_sound_sixty_five :
    4 ≤ 65 ∧ ExactNumerics.strongTrial 65 14 = .divisor 5 ∧ ProperDivisor 65 5 := by
  have hv : ExactNumerics.strongTrial 65 14 = .divisor 5 := by decide +kernel
  obtain ⟨htrial, -⟩ := verdicts_sound (n := 65) (by decide)
  obtain ⟨hsound, -⟩ := htrial 14 (by decide) (by decide)
  exact ⟨by decide, hv, hsound.proper 5 (by rw [hv]; rfl)⟩

end Catalogue

end ExactNumerics
