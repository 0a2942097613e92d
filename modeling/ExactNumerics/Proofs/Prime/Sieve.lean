import ExactNumerics.Prime.Table
import Mathlib.Data.Nat.Prime.Basic

/-!
# The sieve finds the primes

An entry of the sieved table is set exactly when its index is not prime. The invariant of the
marking, `Sieved`, says which entries are set when the candidates below `p` are done: the two
entries that are set from the start, and the proper multiples of a prime `q < p` from `q * q` on.
When `p * p` has passed the limit that is every composite, since the least prime factor of a
composite has a square that is not larger than it.

Every entry past the end of a table reads as set, so no bound has to be carried along with the
index.

## Main results

* `Sieve.getD_markMultiples` — one run of the inner loop
* `Sieve.Sieved.step` — one candidate keeps the invariant
* `Sieve.getD_notPrime`, `Sieve.notPrime_exact` — the table
* `PrimeTable.isPrime_eq` — looking a number up
* `PrimeTable.primesBelow_eq` — reading the table off
-/

namespace ExactNumerics

namespace Sieve

/-! ### Marking -/

theorem getD_set_true (table : Array Bool) {i : ℕ} (hi : i < table.size) (k : ℕ) :
    (table.set i true hi).getD k true = (table.getD k true || decide (k = i)) := by
  by_cases hk : k < table.size
  · by_cases h : i = k
    · subst h; simp [Array.getD, hk]
    · have h' : k ≠ i := fun hc => h hc.symm
      simp [Array.getD, hk, Array.getElem_set_ne hi hk h, h']
  · simp [Array.getD, hk]

/-- **One run of the inner loop.** Apart from what was set before, the entries `i`, `i + step`, …
are set. -/
theorem getD_markMultiples {step : ℕ} (hs : 0 < step) (i : ℕ) (table : Array Bool) (k : ℕ) :
    (markMultiples step i table).getD k true
      = (table.getD k true || decide (i ≤ k ∧ step ∣ k - i)) := by
  fun_induction markMultiples step i table with
  | case1 i table h ih =>
    have hstep : (k = i ∨ i + step ≤ k ∧ step ∣ k - (i + step)) ↔ i ≤ k ∧ step ∣ k - i := by
      constructor
      · rintro (rfl | ⟨hle, hdvd⟩)
        · exact ⟨le_rfl, by simp⟩
        · refine ⟨by omega, ?_⟩
          have hk : k - i = k - (i + step) + step := by omega
          exact hk ▸ Nat.dvd_add_self_right.mpr hdvd
      · rintro ⟨hle, hdvd⟩
        by_cases hk : k = i
        · exact .inl hk
        · have hge : step ≤ k - i := Nat.le_of_dvd (by omega) hdvd
          refine .inr ⟨by omega, ?_⟩
          have hk : k - (i + step) = k - i - step := by omega
          exact hk ▸ Nat.dvd_sub hdvd dvd_rfl
    rw [ih, getD_set_true, Bool.or_assoc, ← Bool.decide_or, decide_eq_decide.mpr hstep]
  | case2 i table h =>
    by_cases hk : k < table.size
    · have hik : ¬ i ≤ k := fun hle => h ⟨hs, by omega⟩
      simp [hik]
    · simp [Array.getD, hk]

/-! ### The invariant -/

/-- The candidates below `p` are done: besides `0` and `1`, the multiples of each prime `q < p`
from `q * q` on are set, and nothing else. -/
structure Sieved (limit p : ℕ) (table : Array Bool) : Prop where
  /-- The table has an entry for each number below the limit. -/
  size : table.size = limit
  /-- Which entries are set. -/
  entry : ∀ k < limit, table.getD k true = true ↔
    k < 2 ∨ ∃ q, q.Prime ∧ q < p ∧ q ∣ k ∧ q * q ≤ k

variable {limit p : ℕ} {table : Array Bool}

/-- A composite has a prime factor whose square is not larger than it. -/
theorem exists_prime_sq_le {k : ℕ} (h2 : 2 ≤ k) (hk : ¬ k.Prime) :
    ∃ q, q.Prime ∧ q ∣ k ∧ q * q ≤ k ∧ q < k := by
  refine ⟨k.minFac, Nat.minFac_prime (by omega), k.minFac_dvd, ?_, ?_⟩
  · simpa [sq] using Nat.minFac_sq_le_self (by omega) hk
  · exact (Nat.not_prime_iff_minFac_lt h2).mp hk

/-- At its own turn a candidate is set exactly when it is not prime. -/
theorem Sieved.candidate (h : Sieved limit p table) (h2 : 2 ≤ p) (hp : p < limit) :
    table.getD p true = true ↔ ¬ p.Prime := by
  rw [h.entry p hp]
  constructor
  · rintro (hlt | ⟨q, hq, hqp, hdvd, -⟩) hprime
    · omega
    · exact hqp.ne ((Nat.prime_dvd_prime_iff_eq hq hprime).mp hdvd)
  · intro hprime
    obtain ⟨q, hq, hdvd, hsq, hlt⟩ := exists_prime_sq_le h2 hprime
    exact .inr ⟨q, hq, hlt, hdvd, hsq⟩

/-- The multiples of a prime from its square on, as the inner loop meets them. -/
theorem sq_le_and_dvd_sub_iff {q k : ℕ} : q * q ≤ k ∧ q ∣ k - q * q ↔ q ∣ k ∧ q * q ≤ k := by
  constructor
  · rintro ⟨hle, hdvd⟩
    exact ⟨(Nat.dvd_sub_iff_left hle (Dvd.intro q rfl)).mp hdvd, hle⟩
  · rintro ⟨hdvd, hle⟩
    exact ⟨hle, Nat.dvd_sub hdvd (Dvd.intro q rfl)⟩

/-- **One candidate keeps the invariant**, whether it is skipped or its multiples are marked. -/
theorem Sieved.step (h : Sieved limit p table) (h2 : 2 ≤ p) (hp : p < limit) :
    Sieved limit (p + 1) (if table.getD p true then table else markMultiples p (p * p) table) := by
  have hset := h.candidate h2 hp
  split
  · rename_i hmarked
    refine ⟨h.size, fun k hk => (h.entry k hk).trans (or_congr_right ?_)⟩
    constructor
    · rintro ⟨q, hq, hqp, hrest⟩
      exact ⟨q, hq, by omega, hrest⟩
    · rintro ⟨q, hq, hqp, hrest⟩
      -- a marked candidate is no prime, so the new bound admits no new `q`
      have hne : q ≠ p := fun hc => hset.mp hmarked (hc ▸ hq)
      exact ⟨q, hq, by omega, hrest⟩
  · rename_i hmarked
    have hprime : p.Prime := by
      by_contra hc
      exact hmarked (hset.mpr hc)
    refine ⟨by rw [size_markMultiples, h.size], fun k hk => ?_⟩
    rw [getD_markMultiples (by omega), Bool.or_eq_true, h.entry k hk, decide_eq_true_iff,
      sq_le_and_dvd_sub_iff]
    constructor
    · rintro ((hlt | ⟨q, hq, hqp, hrest⟩) | hnew)
      · exact .inl hlt
      · exact .inr ⟨q, hq, by omega, hrest⟩
      · exact .inr ⟨p, hprime, by omega, hnew⟩
    · rintro (hlt | ⟨q, hq, hqp, hrest⟩)
      · exact .inl (.inl hlt)
      · rcases Nat.lt_succ_iff_lt_or_eq.mp hqp with hlt | rfl
        · exact .inl (.inr ⟨q, hq, hlt, hrest⟩)
        · exact .inr hrest

/-- When the squares of the candidates have passed the limit, the composites are set. -/
theorem Sieved.final (h : Sieved limit p table) (hp : limit ≤ p * p) {k : ℕ} (hk : k < limit) :
    table.getD k true = true ↔ ¬ k.Prime := by
  rw [h.entry k hk]
  constructor
  · rintro (hlt | ⟨q, hq, -, hdvd, hsq⟩) hprime
    · exact absurd hprime.two_le (by omega)
    · obtain rfl := (Nat.prime_dvd_prime_iff_eq hq hprime).mp hdvd
      have := Nat.mul_le_mul_left q hq.two_le
      have := hq.pos
      omega
  · intro hprime
    by_cases h2 : k < 2
    · exact .inl h2
    · obtain ⟨q, hq, hdvd, hsq, -⟩ := exists_prime_sq_le (by omega) hprime
      refine .inr ⟨q, hq, ?_, hdvd, hsq⟩
      by_contra hge
      have := Nat.mul_le_mul (Nat.not_lt.mp hge) (Nat.not_lt.mp hge)
      omega

/-! ### The table -/

theorem sieved_init (limit : ℕ) :
    Sieved limit 2 (Array.ofFn fun i : Fin limit => decide (i.val < 2)) := by
  refine ⟨Array.size_ofFn, fun k hk => ?_⟩
  have hnone : ¬ ∃ q, q.Prime ∧ q < 2 ∧ q ∣ k ∧ q * q ≤ k := by
    rintro ⟨q, hq, hlt, -⟩
    exact absurd hq.two_le (by omega)
  have hentry : (Array.ofFn fun i : Fin limit => decide (i.val < 2)).getD k true =
      decide (k < 2) := by
    simp [Array.getD, hk]
  rw [hentry, decide_eq_true_iff]
  exact ⟨.inl, fun h => h.resolve_right hnone⟩

/-- From an invariant that holds at the candidate `p ≥ 2`, the marking ends in the table of the
numbers that are not prime. -/
theorem getD_markFrom (h : Sieved limit p table) (h2 : 2 ≤ p) {k : ℕ} (hk : k < limit) :
    (markFrom limit p table).getD k true = true ↔ ¬ k.Prime := by
  fun_induction markFrom limit p table with
  | case1 p table hlt ih =>
    have hp : p ≤ p * p := Nat.le_mul_self p
    exact ih (h.step h2 (by omega)) (by omega)
  | case2 p table hge => exact h.final (Nat.not_lt.mp hge) hk

theorem size_markFrom (limit p : ℕ) (table : Array Bool) :
    (markFrom limit p table).size = table.size := by
  fun_induction markFrom limit p table with
  | case1 p table hlt ih =>
    simp only [dite_eq_ite] at ih
    rw [ih]
    split
    · rfl
    · rw [size_markMultiples]
  | case2 => rfl

@[simp] theorem size_notPrime (limit : ℕ) : (notPrime limit).size = limit := by
  rw [notPrime, size_markFrom, Array.size_ofFn]

/-- **The sieve is exact.** Below the limit, an entry is set exactly when its index is not
prime. -/
theorem getD_notPrime {limit k : ℕ} (hk : k < limit) :
    (notPrime limit).getD k true = !decide k.Prime := by
  rw [Bool.eq_iff_iff, notPrime, getD_markFrom (sieved_init limit) le_rfl hk]
  simp

/-- **The whole table.** Whatever the limit, there is an entry for each number below it, and it is
set exactly when the number is not prime, which zero and one are not. -/
theorem notPrime_exact (limit : ℕ) :
    (notPrime limit).size = limit ∧
      ∀ i < limit, (notPrime limit)[i]? = some (decide ¬ i.Prime) := by
  refine ⟨size_notPrime limit, fun i hi => ?_⟩
  have hsize : i < (notPrime limit).size := by rwa [size_notPrime]
  have hentry : (notPrime limit)[i] = !decide i.Prime := by
    rw [← getD_notPrime hi, Array.getD, dif_pos hsize]
    rfl
  rw [Array.getElem?_eq_getElem hsize, hentry, decide_not]

/-- The last entry of a table may be the square of a prime. -/
theorem notPrime_exact_ten : 9 < 10 ∧ (notPrime 10)[9]? = some true ∧
    7 < 10 ∧ (notPrime 10)[7]? = some false := by
  obtain ⟨-, hentry⟩ := notPrime_exact 10
  exact ⟨by decide, hentry 9 (by decide), by decide, hentry 7 (by decide)⟩

end Sieve

namespace PrimeTable

variable (t : PrimeTable)

/-- **A covered number is looked up correctly.** -/
theorem isPrime_eq {n : ℕ} (hn : n < t.limit) : t.isPrime n = decide n.Prime := by
  rw [isPrime, t.entries_eq, Sieve.getD_notPrime hn, Bool.not_not]

/-- **The table read off up to a bound** holds the primes below the bound. -/
theorem primesBelow_eq {n : ℕ} (hn : n ≤ t.limit) :
    t.primesBelow n = (List.range n).filter Nat.Prime := by
  have hsize : (t.entries.get.extract 0 n).size = n := by
    rw [t.entries_eq, Array.size_extract, Sieve.size_notPrime]
    omega
  rw [primesBelow, Sieve.indicesOf, hsize]
  refine List.filter_congr fun i hi => ?_
  have hin : i < n := List.mem_range.mp hi
  have hentry : (t.entries.get.extract 0 n).getD i true = t.entries.get.getD i true := by
    simp [Array.getD, hin, t.entries_eq, hin.trans_le hn]
  rw [hentry, t.entries_eq, Sieve.getD_notPrime (hin.trans_le hn)]
  by_cases hprime : i.Prime <;> simp [hprime]

end PrimeTable

end ExactNumerics
