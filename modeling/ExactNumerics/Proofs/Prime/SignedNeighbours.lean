import ExactNumerics.Proofs.Prime.Neighbours
import Mathlib.Data.Int.LeastGreatest

/-!
# The neighbouring primes of an integer

Among the integers the negated primes count as well, so below two there are primes again and every
integer has a prime next to it on either side. Changing all signs exchanges the two sides. The
searches make use of that for negative numbers, and so do the proofs: what is found below `n` is the
negative of what is found above `-n`, for every `n`, with the same draws. One contract,
`FoundAbove`, therefore serves both searches.

Near zero nothing is asked about. From minus three to two the number found above is minus two, two
or three. Every other search is a scan over odd numbers.

## Main definitions

* `SignedPrime q` — the absolute value of `q` is prime
* `FoundAbove limit n x` — what is known of the number `x` found above `n`

## Main results

* `Search.previousPrime_eq` — the two searches are mirror images
* `Search.returns_nextPrime_foundAbove` — the search upwards
* `Search.returns_nextPrime_of_lt_limit`, `Search.returns_previousPrime_of_lt_limit` — both searches
  inside the table
* `Search.neighbours_run` — both neighbours
-/

namespace ExactNumerics

/-! ### Primes of either sign -/

/-- The absolute value is prime. -/
def SignedPrime (q : ℤ) : Prop := q.natAbs.Prime

variable {limit : ℕ} {n q x : ℤ}

theorem signedPrime_neg : SignedPrime (-q) ↔ SignedPrime q := by
  rw [SignedPrime, Int.natAbs_neg, SignedPrime]

theorem SignedPrime.two_le_natAbs (h : SignedPrime q) : 2 ≤ q.natAbs := Nat.Prime.two_le h

/-- There is a least prime above every integer. -/
theorem exists_isLeast_signedPrime (n : ℤ) : ∃ q, IsLeast {s | SignedPrime s ∧ n < s} q := by
  obtain ⟨r, ⟨hr, hlt⟩, -⟩ := exists_isLeast_prime n.natAbs
  obtain ⟨q, hq, hmin⟩ := Int.exists_least_of_bdd (P := fun s => SignedPrime s ∧ n < s)
    ⟨n, fun s hs => hs.2.le⟩ ⟨r, hr, by omega⟩
  exact ⟨q, hq, fun s hs => hmin s hs⟩

/-- The greatest prime below `n` is the negative of the least one above `-n`. -/
theorem isLeast_signedPrime_neg_iff :
    IsLeast {s | SignedPrime s ∧ -n < s} (-q) ↔ IsGreatest {s | SignedPrime s ∧ s < n} q := by
  constructor
  · rintro ⟨⟨hq, hlt⟩, hmin⟩
    refine ⟨⟨signedPrime_neg.mp hq, by omega⟩, ?_⟩
    rintro s ⟨hs, hsn⟩
    have := hmin ⟨signedPrime_neg.mpr hs, by omega⟩
    omega
  · rintro ⟨⟨hq, hlt⟩, hmax⟩
    refine ⟨⟨signedPrime_neg.mpr hq, by omega⟩, ?_⟩
    rintro s ⟨hs, hsn⟩
    have := hmax ⟨signedPrime_neg.mpr hs, by omega⟩
    omega

/-- Above a natural number the primes of either sign are the prime numbers. -/
theorem isLeast_natAbs_prime {m : ℕ} (h : IsLeast {s : ℤ | SignedPrime s ∧ m < s} q) :
    IsLeast {s : ℕ | s.Prime ∧ m < s} q.natAbs := by
  obtain ⟨⟨hq, hlt⟩, hmin⟩ := h
  refine ⟨⟨hq, by omega⟩, ?_⟩
  rintro s ⟨hs, hms⟩
  have : q ≤ s := hmin ⟨hs, by omega⟩
  omega

/-! ### The number that is found -/

/-- What is known of the number `x` found above `n`, with a table of the given limit. -/
structure FoundAbove (limit : ℕ) (n x : ℤ) : Prop where
  /-- It lies above. -/
  lt : n < x
  /-- No prime was skipped. -/
  le_of_prime : ∀ q, SignedPrime q → n < q → x ≤ q
  /-- Inside the table it is prime. -/
  prime_of_lt : n.natAbs ≤ limit → x.natAbs < limit → SignedPrime x

/-- **Inside the table the least prime is found.** -/
theorem FoundAbove.eq_of_isLeast (h : FoundAbove limit n x)
    (hq : IsLeast {s | SignedPrime s ∧ n < s} q) (hn : n.natAbs ≤ limit)
    (hlt : q.natAbs < limit) : x = q := by
  obtain ⟨⟨hprime, hnq⟩, hmin⟩ := hq
  have hnx := h.lt
  have hxq : x ≤ q := h.le_of_prime q hprime hnq
  -- a number between `n` and `q` is not larger than both in absolute value
  have hx : SignedPrime x := h.prime_of_lt hn (by omega)
  exact le_antisymm hxq (hmin ⟨hx, hnx⟩)

theorem NextCandidate.foundAbove {m r : ℕ} (h : NextCandidate limit m r) :
    FoundAbove limit m r where
  lt := by
    have := h.lt
    omega
  le_of_prime := by
    intro q hq hlt
    have := h.le_of_prime q.natAbs hq (by omega)
    omega
  prime_of_lt := fun _ hlt => h.prime_of_lt hlt

theorem PreviousCandidate.foundAbove {m r : ℕ} (h : PreviousCandidate limit m r) :
    FoundAbove limit (-m) (-r) where
  lt := by
    have := h.lt
    omega
  le_of_prime := by
    intro q hq hlt
    by_cases hneg : q < 0
    · have := h.le_of_prime q.natAbs hq (by omega)
      omega
    · omega
  prime_of_lt := by
    intro hle _
    exact signedPrime_neg.mpr (h.prime_of_le (by omega))

/-- Two is the least prime above everything from minus two to one. -/
theorem foundAbove_two (hlow : -2 ≤ n) (hn : n < 2) : FoundAbove limit n 2 where
  lt := hn
  le_of_prime := by
    intro q hq hlt
    have := hq.two_le_natAbs
    omega
  prime_of_lt := fun _ _ => Nat.prime_two

namespace Search

variable {σ : Surroundings} {d : Draws}

/-! ### One search is the mirror image of the other -/

/-- **The search below an integer is the mirror image of the search above its negative.** -/
theorem previousPrime_eq (n : ℤ) : previousPrime n = (fun x => -x) <$> nextPrime (-n) := by
  rcases Int.lt_trichotomy n 0 with hneg | rfl | hpos
  · have hnn : ¬ -n < 0 := by omega
    rw [previousPrime, nextPrime, if_pos hneg, if_neg hnn, Int.natAbs_neg, map_eq_pure_bind]
  · rfl
  · have hnn : ¬ n < 0 := by omega
    have hneg : -n < 0 := by omega
    rw [previousPrime, nextPrime, if_neg hnn, if_pos hneg, Int.natAbs_neg]
    simp

/-- Both searches take the same draws. -/
theorem previousPrime_run {p p' : Progress} (h : (nextPrime (-n)).run σ p = (.ok x, p')) :
    (previousPrime n).run σ p = (.ok (-x), p') := by
  rw [previousPrime_eq, map_eq_pure_bind, run_bind_ok h, run_pure]

/-! ### The searches -/

theorem returns_primeBelow {m : ℕ} (hσ : σ.Answers (m - 1)) :
    Returns (primeBelow m) σ d fun y => FoundAbove σ.table.limit (-m) (-y) := by
  refine .ite (fun hthree => .pure ?_) fun hne => .ite (fun hlt => .pure ?_) fun hge => ?_
  · have htwo : PreviousCandidate σ.table.limit 3 2 :=
      ⟨by decide, fun s _ hs => by omega, fun _ => Nat.prime_two⟩
    rw [hthree]
    exact htwo.foundAbove
  · exact foundAbove_two (by omega) (by omega)
  · refine (returns_scanBelow hσ (by omega)).bind fun q d' _ hq => ?_
    exact .pure hq.foundAbove

/-- **The search upwards.** The numbers that it asks about lie below `n` or up to the least prime
above `n`, in absolute value. -/
theorem returns_nextPrime_foundAbove (hq : IsLeast {s | SignedPrime s ∧ n < s} q)
    (hσ : ∀ r, r < n.natAbs ∨ r ≤ q.natAbs → σ.Answers r) :
    Returns (nextPrime n) σ d (FoundAbove σ.table.limit n) := by
  refine .ite (fun hneg => ?_) fun hnn => ?_
  · have hn : n = -(n.natAbs : ℤ) := by omega
    refine (returns_primeBelow (hσ (n.natAbs - 1) (.inl (by omega)))).bind fun y d' _ hy => ?_
    refine .pure ?_
    rwa [← hn] at hy
  · have hn : n = (n.natAbs : ℤ) := by omega
    rw [hn] at hq
    refine (returns_primeAbove (isLeast_natAbs_prime hq) (hσ _ (.inr le_rfl))).meets
      fun x _ hx => ?_
    obtain ⟨r, rfl, hr⟩ := hx
    rw [hn]
    exact hr.foundAbove

/-- **Inside the table the search upwards finds the least prime**, whatever the settings. -/
theorem returns_nextPrime_of_lt_limit (hq : IsLeast {s | SignedPrime s ∧ n < s} q)
    (hn : n.natAbs ≤ σ.table.limit) (hlt : q.natAbs < σ.table.limit) :
    Returns (nextPrime n) σ d fun x => x = q := by
  have hσ : ∀ r, r < n.natAbs ∨ r ≤ q.natAbs → σ.Answers r := fun r hr => .inr (by omega)
  exact (returns_nextPrime_foundAbove hq hσ).meets fun x _ hx => hx.eq_of_isLeast hq hn hlt

/-- **Inside the table the search downwards finds the greatest prime**, whatever the settings. -/
theorem returns_previousPrime_of_lt_limit (hq : IsGreatest {s | SignedPrime s ∧ s < n} q)
    (hn : n.natAbs ≤ σ.table.limit) (hlt : q.natAbs < σ.table.limit) :
    Returns (previousPrime n) σ d fun x => x = q := by
  rw [previousPrime_eq, map_eq_pure_bind]
  refine (returns_nextPrime_of_lt_limit (isLeast_signedPrime_neg_iff.mpr hq)
    (by rwa [Int.natAbs_neg]) (by rwa [Int.natAbs_neg])).bind fun x d' _ hx => ?_
  refine .pure ?_
  rw [hx, neg_neg]

/-- **Both neighbours of an integer.** There is a least prime above it and a greatest one below it,
and both searches end. Neither goes past the prime on its side, inside the table both find it, and
the search above the negative finds the negative of what is found below, on the same draws. -/
theorem neighbours_run (n : ℤ) (σ : Surroundings) (p : Progress)
    (hσ : σ.settings.HasTrialCount) :
    ∃ q q' : ℤ, IsLeast {s | SignedPrime s ∧ n < s} q ∧ IsGreatest {s | SignedPrime s ∧ s < n} q' ∧
      ∃ x y p₁ p₂, (nextPrime n).run σ p = (.ok x, p₁) ∧ (previousPrime n).run σ p = (.ok y, p₂) ∧
        n < x ∧ x ≤ q ∧ q' ≤ y ∧ y < n ∧
        (n.natAbs ≤ σ.table.limit → q.natAbs < σ.table.limit → x = q) ∧
        (n.natAbs ≤ σ.table.limit → q'.natAbs < σ.table.limit → y = q') ∧
        (nextPrime (-n)).run σ p = (.ok (-y), p₂) := by
  obtain ⟨q, hq⟩ := exists_isLeast_signedPrime n
  obtain ⟨s, hs⟩ := exists_isLeast_signedPrime (-n)
  obtain ⟨x, p₁, hrunx, hx⟩ :=
    (returns_nextPrime_foundAbove (d := p.draws) hq fun _ _ => .inl hσ).exists_run
  obtain ⟨z, p₂, hrunz, hz⟩ :=
    (returns_nextPrime_foundAbove (d := p.draws) hs fun _ _ => .inl hσ).exists_run
  have hzn := hz.lt
  have hzs : z ≤ s := hz.le_of_prime s hs.1.1 hs.1.2
  have hs' : IsGreatest {s | SignedPrime s ∧ s < n} (-s) :=
    isLeast_signedPrime_neg_iff.mp (by rwa [neg_neg])
  refine ⟨q, -s, hq, hs', x, -z, p₁, p₂, hrunx, previousPrime_run hrunz,
    hx.lt, hx.le_of_prime q hq.1.1 hq.1.2, by omega, by omega, hx.eq_of_isLeast hq, ?_, ?_⟩
  · intro hn hlt
    rw [hz.eq_of_isLeast hs (by rwa [Int.natAbs_neg]) (by rwa [Int.natAbs_neg] at hlt)]
  · rw [neg_neg]
    exact hrunz

/-- Ten lies between seven and eleven, and minus ten below minus seven. -/
theorem neighbours_run_ten :
    Settings.HasTrialCount {} ∧ ∃ p₁ p₂,
      (nextPrime 10).run ⟨{}, PrimeTable.fresh 12 (by decide), none⟩ ⟨Draws.ofScript [], {}⟩ =
        (.ok 11, p₁) ∧
      (previousPrime 10).run ⟨{}, PrimeTable.fresh 12 (by decide), none⟩ ⟨Draws.ofScript [], {}⟩ =
        (.ok 7, p₂) ∧
      (nextPrime (-10)).run ⟨{}, PrimeTable.fresh 12 (by decide), none⟩ ⟨Draws.ofScript [], {}⟩ =
        (.ok (-7), p₂) := by
  obtain ⟨q, q', hq, hq', x, y, p₁, p₂, hx, hy, -, -, -, -, hxq, hyq, hneg⟩ :=
    neighbours_run 10 ⟨{}, PrimeTable.fresh 12 (by decide), none⟩ ⟨Draws.ofScript [], {}⟩
      Settings.hasTrialCount_default
  obtain rfl : q = 11 := hq.unique ⟨⟨by norm_num [SignedPrime], by decide⟩, fun s hs => hs.2⟩
  obtain rfl : q' = 7 := by
    refine hq'.unique ⟨⟨by norm_num [SignedPrime], by decide⟩, ?_⟩
    rintro s ⟨hs, hlt⟩
    by_contra hgt
    obtain rfl | rfl : s = 8 ∨ s = 9 := by omega
    · exact absurd hs (by norm_num [SignedPrime])
    · exact absurd hs (by norm_num [SignedPrime])
  obtain rfl := hxq (by decide) (by decide)
  obtain rfl := hyq (by decide) (by decide)
  exact ⟨Settings.hasTrialCount_default, p₁, p₂, hx, hy, hneg⟩

end Search

end ExactNumerics
