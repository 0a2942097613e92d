import ExactNumerics.Factor.Factorization
import Mathlib.Data.List.Sort
import Mathlib.Data.Nat.Factorization.Basic
import Mathlib.Data.Nat.Notation

/-!
# Factorizations of a number

A list of powers is a factorization of the number that it denotes if its bases are proper and in
strictly increasing order and none of its exponents is zero. That much survives a wrong answer
about primality. If the bases are prime as well, there is only one such list for each number: the
exponent of a base is its multiplicity in the number.

Collecting powers by base is sorting followed by one pass over neighbours. Sorting is a
permutation and the pass multiplies equal bases together, so neither changes the product, and
after sorting the equal bases are neighbours, so the result increases strictly.

## Main definitions

* `IsFactorization n fs` — the powers `fs` are a factorization of `n`
* `IsPrimeFactorization n fs` — their bases are prime as well
* `FactorizationAnswer limit n fs` — their bases are prime if a table with that limit covers `n`

## Main results

* `IsPrimeFactorization.unique` — a number has one prime factorization at most
* `Factorization.value_merge` — collecting does not change the product
* `Factorization.pairwise_merge` — and puts the bases in strictly increasing order
-/

namespace ExactNumerics

theorem Power.value_eq (p : Power) : p.value = p.base ^ p.exponent := power_eq _ _

/-! ### The product of a list of powers -/

namespace Factorization

variable {fs gs : Factorization}

theorem value_eq_prod (fs : Factorization) : fs.value = (fs.map Power.value).prod := by
  rw [value, List.prod_eq_foldl, List.foldl_map]

@[simp] theorem value_nil : value [] = 1 := rfl

@[simp] theorem value_cons (p : Power) (fs : Factorization) :
    value (p :: fs) = p.base ^ p.exponent * value fs := by
  simp [value_eq_prod, Power.value_eq]

theorem value_singleton (p : Power) : value [p] = p.base ^ p.exponent := by simp

@[simp] theorem value_append (fs gs : Factorization) :
    value (fs ++ gs) = value fs * value gs := by
  simp [value_eq_prod]

theorem value_pos (h : ∀ p ∈ fs, 0 < p.base) : 0 < fs.value := by
  induction fs with
  | nil => exact Nat.one_pos
  | cons p fs ih =>
    obtain ⟨hp, hfs⟩ := List.forall_mem_cons.mp h
    rw [value_cons]
    exact Nat.mul_pos (Nat.pow_pos hp) (ih hfs)

theorem base_dvd_value {p : Power} (hp : p ∈ fs) (he : 0 < p.exponent) : p.base ∣ fs.value := by
  rw [value_eq_prod]
  calc p.base ∣ p.base ^ p.exponent := dvd_pow_self _ (by omega)
    _ = p.value := p.value_eq.symm
    _ ∣ (fs.map Power.value).prod := List.dvd_prod (List.mem_map_of_mem hp)

/-- Powers of which the bases increase strictly are determined by which ones they are. -/
theorem eq_of_increasing (hf : fs.Pairwise fun p q => p.base < q.base)
    (hg : gs.Pairwise fun p q => p.base < q.base) (hmem : ∀ p, p ∈ fs ↔ p ∈ gs) : fs = gs := by
  have hirrefl : Std.Irrefl fun p q : Power => p.base < q.base := ⟨fun p => lt_irrefl p.base⟩
  have hantisymm : Std.Antisymm fun p q : Power => p.base < q.base :=
    ⟨fun p q h h' => absurd h (lt_asymm h')⟩
  exact List.Pairwise.eq_of_mem_iff hf hg hmem

end Factorization

/-! ### Factorizations -/

/-- The powers are a factorization of `n`, with bases that need not be prime. -/
structure IsFactorization (n : ℕ) (fs : Factorization) : Prop where
  /-- The bases increase strictly. -/
  increasing : fs.Pairwise fun p q => p.base < q.base
  /-- No base is zero or one. -/
  two_le_base : ∀ p ∈ fs, 2 ≤ p.base
  /-- No exponent is zero. -/
  exponent_pos : ∀ p ∈ fs, 0 < p.exponent
  /-- The product is the number. -/
  value_eq : fs.value = n

/-- The powers are a factorization of `n` into powers of primes. -/
structure IsPrimeFactorization (n : ℕ) (fs : Factorization) : Prop extends
    IsFactorization n fs where
  /-- The bases are prime. -/
  prime : ∀ p ∈ fs, p.base.Prime

/-- What is known of the powers `fs` found for `n`, with a prime table of the given limit. -/
structure FactorizationAnswer (limit n : ℕ) (fs : Factorization) : Prop extends
    IsFactorization n fs where
  /-- The bases are prime if the table covers the number. -/
  prime_of_lt : n < limit → ∀ p ∈ fs, p.base.Prime

theorem FactorizationAnswer.isPrimeFactorization {limit n : ℕ} {fs : Factorization}
    (h : FactorizationAnswer limit n fs) (hn : n < limit) : IsPrimeFactorization n fs :=
  ⟨h.toIsFactorization, h.prime_of_lt hn⟩

namespace IsPrimeFactorization

variable {n : ℕ} {fs gs : Factorization}

theorem tail {p : Power} (h : IsPrimeFactorization n (p :: fs)) :
    IsPrimeFactorization fs.value fs where
  increasing := h.increasing.of_cons
  two_le_base q hq := h.two_le_base q (List.mem_cons_of_mem p hq)
  exponent_pos q hq := h.exponent_pos q (List.mem_cons_of_mem p hq)
  value_eq := rfl
  prime q hq := h.prime q (List.mem_cons_of_mem p hq)

/-- A prime divides the number exactly when it is the base of one of the powers. -/
theorem dvd_value_iff (h : IsPrimeFactorization n fs) {q : ℕ} (hq : q.Prime) :
    q ∣ fs.value ↔ ∃ p ∈ fs, p.base = q := by
  constructor
  · intro hdvd
    rw [Factorization.value_eq_prod] at hdvd
    obtain ⟨v, hv, hdvd⟩ := (Prime.dvd_prod_iff hq.prime).mp hdvd
    obtain ⟨p, hp, rfl⟩ := List.mem_map.mp hv
    rw [p.value_eq] at hdvd
    exact ⟨p, hp, ((Nat.prime_dvd_prime_iff_eq hq (h.prime p hp)).mp
      (hq.dvd_of_dvd_pow hdvd)).symm⟩
  · rintro ⟨p, hp, rfl⟩
    exact Factorization.base_dvd_value hp (h.exponent_pos p hp)

/-- The exponent of a base is its multiplicity in the number. -/
theorem factorization_eq (h : IsPrimeFactorization n fs) {p : Power} (hp : p ∈ fs) :
    fs.value.factorization p.base = p.exponent := by
  induction fs generalizing n with
  | nil => simp at hp
  | cons r rest ih =>
    have hr := h.prime r List.mem_cons_self
    have hrest : 0 < Factorization.value rest :=
      Factorization.value_pos fun q hq => (h.tail.prime q hq).pos
    rw [Factorization.value_cons, Nat.factorization_mul (pow_ne_zero _ hr.ne_zero) hrest.ne',
      Finsupp.add_apply, hr.factorization_pow]
    have hlt := (List.pairwise_cons.mp h.increasing).1
    rcases List.mem_cons.mp hp with rfl | hmem
    · have hndvd : ¬ p.base ∣ Factorization.value rest := fun hdvd => by
        obtain ⟨q, hq, hbase⟩ := (h.tail.dvd_value_iff hr).mp hdvd
        exact (hlt q hq).ne' hbase
      rw [Finsupp.single_eq_same, Nat.factorization_eq_zero_of_not_dvd hndvd, Nat.add_zero]
    · rw [Finsupp.single_eq_of_ne (hlt p hmem).ne', Nat.zero_add]
      exact ih h.tail hmem

/-- Which powers the prime factorization consists of, read off the number alone. -/
theorem mem_iff (h : IsPrimeFactorization n fs) (p : Power) :
    p ∈ fs ↔ p.base.Prime ∧ p.base ∣ n ∧ p.exponent = n.factorization p.base := by
  rw [← h.value_eq]
  constructor
  · intro hp
    exact ⟨h.prime p hp, Factorization.base_dvd_value hp (h.exponent_pos p hp),
      (h.factorization_eq hp).symm⟩
  · rintro ⟨hprime, hdvd, hexp⟩
    obtain ⟨q, hq, hbase⟩ := (h.dvd_value_iff hprime).mp hdvd
    have hqexp := h.factorization_eq hq
    rw [hbase, ← hexp] at hqexp
    obtain ⟨b, e⟩ := p
    obtain ⟨b', e'⟩ := q
    simp only at hbase hqexp
    rwa [← hbase, hqexp]

/-- The bases are the prime divisors. -/
theorem mem_bases_iff (h : IsPrimeFactorization n fs) (q : ℕ) :
    q ∈ fs.map (·.base) ↔ q.Prime ∧ q ∣ n := by
  rw [List.mem_map]
  constructor
  · rintro ⟨p, hp, rfl⟩
    obtain ⟨hprime, hdvd, -⟩ := (h.mem_iff p).mp hp
    exact ⟨hprime, hdvd⟩
  · rintro ⟨hprime, hdvd⟩
    exact ⟨⟨q, n.factorization q⟩, (h.mem_iff _).mpr ⟨hprime, hdvd, rfl⟩, rfl⟩

/-- **A number has one prime factorization at most.** -/
theorem unique (hf : IsPrimeFactorization n fs) (hg : IsPrimeFactorization n gs) : fs = gs := by
  have hmem : ∀ p, p ∈ fs ↔ p ∈ gs := fun p => (hf.mem_iff p).trans (hg.mem_iff p).symm
  exact Factorization.eq_of_increasing hf.increasing hg.increasing hmem

end IsPrimeFactorization

/-! ### Collecting by base -/

section Collect

variable {p q : ℕ × ℕ} {l : List (ℕ × ℕ)}

/-- One step of the pass over neighbours: the pair is joined with the first one of the rest, or
put in front of it. -/
theorem addNeighbours_cons (p : ℕ × ℕ) (l : List (ℕ × ℕ)) :
    (∃ q merged, addNeighbours l = q :: merged ∧ p.1 = q.1 ∧
        addNeighbours (p :: l) = (p.1, p.2 + q.2) :: merged) ∨
      (addNeighbours (p :: l) = p :: addNeighbours l ∧
        ∀ q ∈ (addNeighbours l).head?, p.1 ≠ q.1) := by
  rcases hrest : addNeighbours l with _ | ⟨q, merged⟩
  · exact .inr ⟨by rw [addNeighbours, hrest], by simp⟩
  · by_cases hbase : p.1 = q.1
    · exact .inl ⟨q, merged, rfl, hbase, by rw [addNeighbours, hrest]; simp [hbase]⟩
    · exact .inr ⟨by rw [addNeighbours, hrest]; simp [hbase], by simpa using hbase⟩

/-- A collected pair has the base of one of the given pairs, and no smaller exponent. -/
theorem mem_addNeighbours (h : q ∈ addNeighbours l) : ∃ p ∈ l, p.1 = q.1 ∧ p.2 ≤ q.2 := by
  induction l generalizing q with
  | nil => simp [addNeighbours] at h
  | cons p l ih =>
    obtain ⟨r, merged, hrest, hbase, hcons⟩ | ⟨hcons, -⟩ := addNeighbours_cons p l
    · rw [hcons] at h
      rcases List.mem_cons.mp h with rfl | hmem
      · exact ⟨p, List.mem_cons_self, rfl, Nat.le_add_right _ _⟩
      · obtain ⟨s, hs, hs'⟩ := ih (hrest ▸ List.mem_cons_of_mem r hmem)
        exact ⟨s, List.mem_cons_of_mem p hs, hs'⟩
    · rw [hcons] at h
      rcases List.mem_cons.mp h with rfl | hmem
      · exact ⟨q, List.mem_cons_self, rfl, le_rfl⟩
      · obtain ⟨s, hs, hs'⟩ := ih hmem
        exact ⟨s, List.mem_cons_of_mem p hs, hs'⟩

/-- From pairs in increasing order, the pass makes pairs in strictly increasing order. -/
theorem pairwise_addNeighbours (h : l.Pairwise fun p q => p.1 ≤ q.1) :
    (addNeighbours l).Pairwise fun p q => p.1 < q.1 := by
  induction l with
  | nil => exact .nil
  | cons p l ih =>
    obtain ⟨hle, hl⟩ := List.pairwise_cons.mp h
    have hrec := ih hl
    obtain ⟨r, merged, hrest, hbase, hcons⟩ | ⟨hcons, hne⟩ := addNeighbours_cons p l
    · rw [hrest, List.pairwise_cons] at hrec
      rw [hcons]
      exact List.pairwise_cons.mpr ⟨fun s hs => hbase ▸ hrec.1 s hs, hrec.2⟩
    · rw [hcons]
      refine List.pairwise_cons.mpr ⟨fun s hs => ?_, hrec⟩
      have hle' : ∀ s ∈ addNeighbours l, p.1 ≤ s.1 := fun s hs => by
        obtain ⟨q, hq, hbase, -⟩ := mem_addNeighbours hs
        exact hbase ▸ hle q hq
      -- the first pair has another base, and the ones after it have larger ones
      rcases hrest : addNeighbours l with _ | ⟨r, merged⟩
      · simp [hrest] at hs
      · rw [hrest] at hs hrec hne hle'
        have hr : p.1 < r.1 :=
          lt_of_le_of_ne (hle' r List.mem_cons_self) (hne r rfl)
        rcases List.mem_cons.mp hs with rfl | hmem
        · exact hr
        · exact hr.trans ((List.pairwise_cons.mp hrec).1 s hmem)

theorem prod_addNeighbours (l : List (ℕ × ℕ)) :
    ((addNeighbours l).map fun p => p.1 ^ p.2).prod = (l.map fun p => p.1 ^ p.2).prod := by
  induction l with
  | nil => rfl
  | cons p l ih =>
    rw [List.map_cons, List.prod_cons, ← ih]
    obtain ⟨r, merged, hrest, hbase, hcons⟩ | ⟨hcons, -⟩ := addNeighbours_cons p l
    · rw [hcons, hrest]
      simp only [List.map_cons, List.prod_cons]
      rw [pow_add, mul_assoc, hbase]
    · rw [hcons, List.map_cons, List.prod_cons]

theorem precedes_trans (p q r : ℕ × ℕ) (hpq : precedes p q = true) (hqr : precedes q r = true) :
    precedes p r = true := by
  simp only [precedes, Bool.or_eq_true, Bool.and_eq_true, decide_eq_true_eq] at *
  omega

theorem precedes_total (p q : ℕ × ℕ) : (precedes p q || precedes q p) = true := by
  simp only [precedes, Bool.or_eq_true, Bool.and_eq_true, decide_eq_true_eq]
  omega

theorem pairwise_collectByBase (l : List (ℕ × ℕ)) :
    (collectByBase l).Pairwise fun p q => p.1 < q.1 := by
  have hsorted : (l.mergeSort precedes).Pairwise fun p q => precedes p q = true :=
    List.pairwise_mergeSort precedes_trans precedes_total l
  refine pairwise_addNeighbours (hsorted.imp fun {p q} h => ?_)
  simp only [precedes, Bool.or_eq_true, Bool.and_eq_true, decide_eq_true_eq] at h
  omega

end Collect

namespace Factorization

variable {fs : Factorization}

/-- **Collecting does not change the product.** -/
theorem value_merge (fs : Factorization) : fs.merge.value = fs.value := by
  have hmap : ∀ l : List (ℕ × ℕ),
      value (l.map fun p => ⟨p.1, p.2⟩) = (l.map fun p => p.1 ^ p.2).prod := fun l => by
    simp only [value_eq_prod, List.map_map, Function.comp_def, Power.value_eq]
  refine (hmap _).trans ?_
  rw [collectByBase, prod_addNeighbours,
    ((List.mergeSort_perm _ _).map _).prod_eq, value_eq_prod, List.map_map]
  exact congrArg List.prod (List.map_congr_left fun p _ => p.value_eq.symm)

/-- **Collecting puts the bases in strictly increasing order.** -/
theorem pairwise_merge (fs : Factorization) : fs.merge.Pairwise fun p q => p.base < q.base :=
  List.pairwise_map.mpr (pairwise_collectByBase _)

/-- A collected power has the base of one of the given powers, and no smaller exponent. -/
theorem mem_merge {q : Power} (h : q ∈ fs.merge) :
    ∃ p ∈ fs, p.base = q.base ∧ p.exponent ≤ q.exponent := by
  obtain ⟨⟨b, e⟩, hmem, rfl⟩ := List.mem_map.mp h
  obtain ⟨r, hr, hbase, hexp⟩ := mem_addNeighbours hmem
  obtain ⟨p, hp, rfl⟩ := List.mem_map.mp (List.mem_mergeSort.mp hr)
  exact ⟨p, hp, hbase, hexp⟩

end Factorization

end ExactNumerics
