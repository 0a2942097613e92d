import ExactNumerics.Catalogue.Factors
import ExactNumerics.Proofs.Factor.Covered
import ExactNumerics.Proofs.Value.Operand

/-!
# Powers collected by base

Collected powers are told apart by their bases, so a list of them is a function: the exponent of
every base that occurs. Read as such a function, any list of powers stands for the sum of the
exponents of a base, in whatever order they come. The pass over neighbours keeps this function, and
in its result a base occurs once, so its exponent there is the sum.

What the result is does therefore not depend on the order of the powers. It does not depend on how
they are sorted by exponent either: what the pass over neighbours needs is only that equal bases
come together.

If the bases are prime and no exponent is zero, then the collected powers are the prime
factorization of the product, and this is what a search for it returns.

## Main definitions

* `Factorization.exponentOf fs b` — the sum of the exponents of `b`
* `Catalogue.HoldsPowers v fs` — the operand `v` is a sequence of the powers `fs`

## Main results

* `Factorization.mem_merge_iff` — which powers are collected
* `Factorization.merge_eq_of_perm` — in any order
* `Factorization.isPrimeFactorization_merge` — powers of primes
* `collectByBase_map_cast` — collecting integers
* `Catalogue.collect_powers` — the operations on operands
-/

namespace ExactNumerics

section Collect

variable {p q : ℕ × ℕ} {l : List (ℕ × ℕ)} {b : ℕ}

/-! ### Sums of exponents -/

/-- The sum of the exponents of a base. -/
def exponentSum (l : List (ℕ × ℕ)) (b : ℕ) : ℕ := (l.map fun p => if p.1 = b then p.2 else 0).sum

theorem exponentSum_cons (p : ℕ × ℕ) (l : List (ℕ × ℕ)) (b : ℕ) :
    exponentSum (p :: l) b = (if p.1 = b then p.2 else 0) + exponentSum l b := by
  rw [exponentSum, List.map_cons, List.sum_cons, exponentSum]

/-- A base that does not occur has no exponents. -/
theorem exponentSum_eq_zero (h : ∀ p ∈ l, p.1 ≠ b) : exponentSum l b = 0 := by
  refine List.sum_eq_zero fun e he => ?_
  obtain ⟨p, hp, rfl⟩ := List.mem_map.mp he
  exact if_neg (h p hp)

/-- Where bases occur once, the sum is the exponent. -/
theorem exponentSum_eq_of_mem (h : l.Pairwise fun p q => p.1 < q.1) (hp : p ∈ l) :
    exponentSum l p.1 = p.2 := by
  induction l with
  | nil => simp at hp
  | cons r l ih =>
    obtain ⟨hlt, hl⟩ := List.pairwise_cons.mp h
    rw [exponentSum_cons]
    rcases List.mem_cons.mp hp with rfl | hmem
    · rw [if_pos rfl, exponentSum_eq_zero fun q hq => (hlt q hq).ne', Nat.add_zero]
    · rw [if_neg (hlt p hmem).ne, ih hl hmem, Nat.zero_add]

/-- **The pass over neighbours keeps the sums.** -/
theorem exponentSum_addNeighbours (l : List (ℕ × ℕ)) (b : ℕ) :
    exponentSum (addNeighbours l) b = exponentSum l b := by
  induction l with
  | nil => rfl
  | cons p l ih =>
    rw [exponentSum_cons p l, ← ih]
    obtain ⟨r, merged, hrest, hbase, hcons⟩ | ⟨hcons, -⟩ := addNeighbours_cons p l
    · rw [hcons, hrest, exponentSum_cons, exponentSum_cons, hbase]
      split <;> omega
    · rw [hcons, exponentSum_cons]

/-- It keeps the bases. -/
theorem exists_mem_addNeighbours_iff :
    (∃ q ∈ addNeighbours l, q.1 = b) ↔ ∃ q ∈ l, q.1 = b := by
  induction l with
  | nil => rfl
  | cons p l ih =>
    rw [List.exists_mem_cons_iff, ← ih]
    obtain ⟨r, merged, hrest, hbase, hcons⟩ | ⟨hcons, -⟩ := addNeighbours_cons p l
    · rw [hcons, hrest, List.exists_mem_cons_iff, List.exists_mem_cons_iff, hbase, ← or_assoc,
        or_self]
    · rw [hcons, List.exists_mem_cons_iff]

/-- **Which pairs are collected.** -/
theorem mem_collectByBase_iff :
    p ∈ collectByBase l ↔ (∃ q ∈ l, q.1 = p.1) ∧ p.2 = exponentSum l p.1 := by
  have hperm := List.mergeSort_perm l precedes
  have hsum : exponentSum (collectByBase l) p.1 = exponentSum l p.1 :=
    (exponentSum_addNeighbours _ _).trans (hperm.map _).sum_eq
  have hbases : (∃ q ∈ collectByBase l, q.1 = p.1) ↔ ∃ q ∈ l, q.1 = p.1 := by
    rw [collectByBase, exists_mem_addNeighbours_iff]
    simp only [List.mem_mergeSort]
  rw [← hsum, ← hbases]
  constructor
  · intro hp
    exact ⟨⟨p, hp, rfl⟩, (exponentSum_eq_of_mem (pairwise_collectByBase l) hp).symm⟩
  · rintro ⟨⟨q, hq, hbase⟩, hexp⟩
    rw [← hbase, exponentSum_eq_of_mem (pairwise_collectByBase l) hq] at hexp
    rwa [← Prod.ext hbase hexp.symm]

/-! ### Collecting integers -/

/-- A pair of natural numbers as a pair of integers. -/
def castPair (p : ℕ × ℕ) : ℤ × ℤ := (p.1, p.2)

theorem addNeighbours_map_cast (l : List (ℕ × ℕ)) :
    addNeighbours (l.map castPair) = (addNeighbours l).map castPair := by
  induction l with
  | nil => rfl
  | cons p l ih =>
    rw [List.map_cons, addNeighbours, addNeighbours, ih]
    cases addNeighbours l with
    | nil => rfl
    | cons q merged =>
      by_cases hbase : p.1 = q.1
      · simp [castPair, hbase]
      · simp [castPair, hbase]

/-- **Collecting does not depend on whether numbers are natural or integers.** -/
theorem collectByBase_map_cast (l : List (ℕ × ℕ)) :
    collectByBase (l.map castPair) = (collectByBase l).map castPair := by
  have hprecedes (p q : ℕ × ℕ) : precedes p q = precedes (castPair p) (castPair q) := by
    simp [precedes, castPair]
  rw [collectByBase, ← List.map_mergeSort fun p _ q _ => hprecedes p q, addNeighbours_map_cast,
    collectByBase]

end Collect

namespace Factorization

variable {fs gs : Factorization}

/-! ### Powers -/

/-- The sum of the exponents of a base. -/
def exponentOf (fs : Factorization) (b : ℕ) : ℕ :=
  exponentSum (fs.map fun p => (p.base, p.exponent)) b

/-- **Which powers are collected.** Each base that occurs has the sum of its exponents. -/
theorem mem_merge_iff (fs : Factorization) (p : Power) :
    p ∈ fs.merge ↔ (∃ q ∈ fs, q.base = p.base) ∧ p.exponent = fs.exponentOf p.base := by
  have hmem : p ∈ fs.merge ↔
      (p.base, p.exponent) ∈ collectByBase (fs.map fun p => (p.base, p.exponent)) := by
    rw [merge, List.mem_map]
    exact ⟨fun ⟨_, hr, hp⟩ => hp ▸ hr, fun hr => ⟨_, hr, rfl⟩⟩
  rw [hmem, mem_collectByBase_iff, exponentOf]
  simp only [List.mem_map, exists_exists_and_eq_and]

/-- **Powers are collected in any order.** -/
theorem merge_eq_of_perm (h : gs.Perm fs) : gs.merge = fs.merge := by
  have hsum (b : ℕ) : gs.exponentOf b = fs.exponentOf b := ((h.map _).map _).sum_eq
  have hmem (p : Power) : p ∈ gs.merge ↔ p ∈ fs.merge := by
    simp only [mem_merge_iff, hsum, h.mem_iff]
  exact eq_of_increasing gs.pairwise_merge fs.pairwise_merge hmem

/-- **Collected powers of primes are a prime factorization.** -/
theorem isPrimeFactorization_merge (h : ∀ p ∈ fs, p.base.Prime ∧ 1 ≤ p.exponent) :
    IsPrimeFactorization fs.value fs.merge := by
  have hbase : ∀ p ∈ fs.merge, p.base.Prime ∧ 1 ≤ p.exponent := fun p hp => by
    obtain ⟨q, hq, hbase, hle⟩ := mem_merge hp
    exact ⟨hbase ▸ (h q hq).1, (h q hq).2.trans hle⟩
  exact
    { increasing := fs.pairwise_merge
      two_le_base := fun p hp => (hbase p hp).1.two_le
      exponent_pos := fun p hp => (hbase p hp).2
      value_eq := fs.value_merge
      prime := fun p hp => (hbase p hp).1 }

end Factorization

namespace Catalogue

open Search

variable {v w : Value} {fs gs : Factorization}

/-! ### Operands -/

/-- The operand is a list, a tuple or a power that consists of a base and an exponent. -/
def HoldsPower (v : Value) (p : Power) : Prop :=
  v.items = .ok [.integer p.base, .integer p.exponent]

/-- The operand is a sequence of such operands that can be ordered: all of them are lists, or none
is one. -/
def HoldsPowers (v : Value) (fs : Factorization) : Prop :=
  ∃ items, v.items = .ok items ∧ (items.all isList ∨ items.all (!isList ·)) ∧
    items.Forall₂ HoldsPower fs

/-- What is made of powers holds them. -/
theorem holdsPowers_factorizationValue (fs : Factorization) :
    HoldsPowers (factorizationValue fs) fs := by
  refine ⟨_, rfl, .inr ?_, ?_⟩
  · rw [List.all_map]
    exact List.all_eq_true.mpr fun p _ => rfl
  · rw [List.forall₂_map_left_iff]
    exact List.forall₂_same.mpr fun p _ => rfl

theorem integerPairs?_eq {items : List Value} (hkind : items.all isList ∨ items.all (!isList ·))
    (h : items.Forall₂ HoldsPower fs) :
    integerPairs? items = some (fs.map fun p => castPair (p.base, p.exponent)) := by
  rw [integerPairs?, if_pos (by simpa using hkind)]
  clear hkind
  induction h with
  | nil => rfl
  | cons hv _ ih =>
    rw [HoldsPower] at hv
    rw [List.mapM_cons, integerPair?, hv, ih]
    rfl

theorem mapM_checkedPower {items : List Value} (h : items.Forall₂ HoldsPower fs) :
    items.mapM checkedPower = .ok fs := by
  induction h with
  | nil => rfl
  | cons hv _ ih =>
    rw [HoldsPower] at hv
    rw [List.mapM_cons, checkedPower, pairOf, hv, ih]
    rfl

/-- **Collecting operands.** -/
theorem collectValue_eq (h : HoldsPowers v fs) :
    collectValue v = .ok (factorizationValue fs.merge) := by
  obtain ⟨items, hv, hkind, hitems⟩ := h
  have hpairs : fs.map (fun p => castPair (p.base, p.exponent)) =
      (fs.map fun p => (p.base, p.exponent)).map castPair := by rw [List.map_map]; rfl
  simp only [collectValue, hv, ok_bind, integerPairs?_eq hkind hitems, hpairs,
    collectByBase_map_cast, pure_eq_ok]
  rw [factorizationValue, Factorization.merge, List.map_map, List.map_map]
  rfl

/-- **Multiplying operands.** -/
theorem productValue_eq (h : HoldsPowers v fs) : productValue v = .ok (.integer fs.value) := by
  obtain ⟨items, hv, -, hitems⟩ := h
  rw [productValue, hv, ok_bind, mapM_checkedPower hitems, ok_bind, pure_eq_ok]

/-- **What is collected from powers of natural numbers.** The bases increase strictly, each one that
occurs has the sum of its exponents, and neither the order of the powers nor the product makes a
difference. If the bases are prime and the exponents are not zero, then a search for the factors of
the product returns the same, with any table that covers it. -/
theorem collect_powers (h : HoldsPowers v fs) :
    collectValue v = .ok (factorizationValue fs.merge) ∧
      fs.merge.Pairwise (fun p q => p.base < q.base) ∧
      (∀ gs w, gs.Perm fs → HoldsPowers w gs → collectValue w = collectValue v) ∧
      (∀ p, p ∈ fs.merge ↔ (∃ q ∈ fs, q.base = p.base) ∧ p.exponent = fs.exponentOf p.base) ∧
      productValue v = .ok (.integer fs.value) ∧
      (collectValue v >>= productValue) = productValue v ∧
      ((∀ p ∈ fs, p.base.Prime ∧ 1 ≤ p.exponent) →
        CoveredAnswer fs.value (factor fs.value) fs.merge ∧
        ∀ (σ : Surroundings) (p p' : Progress) (gs : Factorization), fs.value < σ.table.limit →
          (factor fs.value).run σ p = (.ok gs, p') → gs = fs.merge) := by
  have hcollect := collectValue_eq h
  refine ⟨hcollect, fs.pairwise_merge, fun gs w hperm hw => ?_, fs.mem_merge_iff,
    productValue_eq h, ?_, fun hprime => ?_⟩
  · rw [collectValue_eq hw, hcollect, Factorization.merge_eq_of_perm hperm]
  · rw [hcollect, productValue_eq h]
    exact (productValue_eq (holdsPowers_factorizationValue _)).trans (by rw [fs.value_merge])
  · have hmerge := Factorization.isPrimeFactorization_merge hprime
    have hpos : 0 < fs.value := Factorization.value_pos fun p hp => (hprime p hp).1.pos
    refine ⟨(coveredAnswer_factor_iff hpos).mpr hmerge, fun σ p p' gs hlt hrun => ?_⟩
    exact IsPrimeFactorization.unique (Meets.of_ok (meets_factor_of_covered hpos hlt) hrun) hmerge

/-- Four powers that make up 360, with the base two in two places. -/
theorem collect_powers_three_hundred_sixty :
    let v : Value := .list [.ofPower 5 1, .ofPower 2 1, .tuple [.integer 3, .integer 2],
      .tuple [.integer 2, .integer 2]]
    let fs : Factorization := [⟨5, 1⟩, ⟨2, 1⟩, ⟨3, 2⟩, ⟨2, 2⟩]
    HoldsPowers v fs ∧ (∀ p ∈ fs, p.base.Prime ∧ 1 ≤ p.exponent) ∧
      collectValue v = .ok (.list [.ofPower 2 3, .ofPower 3 2, .ofPower 5 1]) ∧
      productValue v = .ok (.integer 360) ∧
      CoveredAnswer 360 (factor 360) [⟨2, 3⟩, ⟨3, 2⟩, ⟨5, 1⟩] := by
  intro v fs
  have hv : HoldsPowers v fs :=
    ⟨_, rfl, .inr rfl, .cons rfl (.cons rfl (.cons rfl (.cons rfl .nil)))⟩
  have hprime : ∀ p ∈ fs, p.base.Prime ∧ 1 ≤ p.exponent := by decide
  have hvalue : fs.value = 360 := by decide
  have hmerge : fs.merge = [⟨2, 3⟩, ⟨3, 2⟩, ⟨5, 1⟩] :=
    (Factorization.isPrimeFactorization_merge hprime).unique
      ⟨⟨by decide, by decide, by decide, by decide⟩, by decide⟩
  obtain ⟨hcollect, -, -, -, hproduct, -, hfactor⟩ := collect_powers hv
  obtain ⟨hanswer, -⟩ := hfactor hprime
  rw [hmerge] at hcollect hanswer
  rw [hvalue] at hproduct hanswer
  exact ⟨hv, hprime, hcollect, hproduct, hanswer⟩

end Catalogue

end ExactNumerics
