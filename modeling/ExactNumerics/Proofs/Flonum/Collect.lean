import ExactNumerics.Catalogue.Vectors
import ExactNumerics.Proofs.Value.Operand
import Mathlib.Data.List.GetD
import Mathlib.Tactic.Ring

/-!
# Collected vectors

There are two ways from a sequence to a vector. A growing buffer takes all the items. Its places
past the part in use hold anything, so nothing is said of them; `GrowingBuffer.Holds b xs` says that
the part in use is `xs`, and that the buffer was doubled no more often than it had to be. One more
item keeps that, whether or not the buffer is full, and that is the step of the induction over the
items.

A vector of known length is filled from the front. Here the invariant is in the statement itself:
filling from place `i` up to place `k` changes the places between, and stops at `k` because the
vector ends there or the sequence does. How many items are pulled is `k`, and what the sequence
holds from the end of the vector on makes no difference to anything, not even to a failure.

## Main definitions

* `GrowingBuffer.Holds` — what a growing buffer has collected
* `FlonumVector.Construction` — the ways to construct a vector from a sequence or a function

## Main results

* `GrowingBuffer.Holds.push`, `FlonumVector.holds_collectInto` — the growing buffer
* `FlonumVector.fillFrom_eq`, `FlonumVector.fillFrom_congr` — filling a vector of known length
* `Catalogue.constructions_agree` — all constructions agree
-/

namespace ExactNumerics

variable {α : Type}

namespace GrowingBuffer

variable {b : GrowingBuffer} {xs : List Binary64} {x : Binary64}

/-! ### Growing buffers -/

theorem size_trimmed (b : GrowingBuffer) : b.trimmed.size = b.count := by
  have := b.count_le
  rw [trimmed, Array.size_extract]
  omega

/-- Doubling keeps the part in use. -/
theorem trimmed_doubled (b : GrowingBuffer) : b.doubled.trimmed = b.trimmed := by
  have hle := b.count_le
  refine Array.ext (by rw [size_trimmed, size_trimmed]; rfl) fun i hi _ => ?_
  rw [size_trimmed] at hi
  have hi' : i < b.places.size := lt_of_lt_of_le hi hle
  simp only [trimmed, doubled, Array.getElem_extract, Nat.zero_add]
  rw [Array.getElem_append_left hi']

/-- Writing adds to the part in use. -/
theorem trimmed_write (h : b.count < b.places.size) :
    (b.write x h).trimmed = b.trimmed.push x := by
  refine Array.ext ?_ fun i hi _ => ?_
  · rw [size_trimmed, Array.size_push, size_trimmed]
    rfl
  · rw [size_trimmed] at hi
    simp only [trimmed, write, Array.getElem_extract, Nat.zero_add, Array.getElem_set,
      Array.getElem_push]
    have hsize : (b.places.extract 0 b.count).size = b.count := b.size_trimmed
    by_cases heq : b.count = i
    · simp [heq]
    · have hlt : i < b.count := by
        change i < b.count + 1 at hi
        omega
      simp [heq, hlt, hsize]

/-- **One more item**, whether or not the buffer is full. -/
theorem trimmed_push (b : GrowingBuffer) (x : Binary64) :
    (b.push x).trimmed = b.trimmed.push x := by
  rw [push]
  split
  · rename_i h
    exact trimmed_write h
  · rw [trimmed_write, trimmed_doubled]

theorem size_push (b : GrowingBuffer) (x : Binary64) :
    (b.push x).places.size =
      if b.count < b.places.size then b.places.size else b.places.size + b.places.size := by
  rw [push]
  split
  · rename_i h
    exact Array.size_set h
  · rw [write, Array.size_set, doubled, Array.size_append, Array.size_replicate]

/-- The place that one more value is written to lies in the buffer, after the doubling if there is
one, and the places in use keep their values. -/
theorem getElem?_push (b : GrowingBuffer) (x : Binary64) :
    (b.push x).places[b.count]? = some x ∧
      ∀ i < b.count, (b.push x).places[i]? = b.places[i]? := by
  have hle := b.count_le
  rw [push]
  split
  · rename_i h
    refine ⟨Array.getElem?_set_self h, fun i hi => ?_⟩
    exact Array.getElem?_set_ne h (by omega)
  · refine ⟨Array.getElem?_set_self b.count_lt_doubled, fun i hi => ?_⟩
    have hne : b.doubled.count ≠ i := by
      change b.count ≠ i
      omega
    rw [write, Array.getElem?_set_ne b.count_lt_doubled hne, doubled,
      Array.getElem?_append_left (by omega)]

/-- The buffer has collected the doubles `xs`. Its places are four, doubled as long as `xs` did not
fit. -/
structure Holds (b : GrowingBuffer) (xs : List Binary64) : Prop where
  /-- The part in use. -/
  trimmed : b.trimmed = xs.toArray
  /-- The number of places. -/
  size : ∃ j, b.places.size = initialCapacity * 2 ^ j ∧
    (j = 0 ∨ initialCapacity * 2 ^ (j - 1) < xs.length)

theorem Holds.count (h : b.Holds xs) : b.count = xs.length := by
  rw [← size_trimmed, h.trimmed, List.size_toArray]

theorem holds_empty : empty.Holds [] where
  trimmed := rfl
  size := ⟨0, by simp [empty], .inl rfl⟩

/-- **A step** of collecting. -/
theorem Holds.push (h : b.Holds xs) (x : Binary64) : (b.push x).Holds (xs ++ [x]) where
  trimmed := by
    rw [trimmed_push, h.trimmed, List.push_toArray]
  size := by
    obtain ⟨j, hsize, hj⟩ := h.size
    have hcount := h.count
    have hle := b.count_le
    rw [size_push, List.length_append, List.length_singleton]
    split
    · exact ⟨j, hsize, hj.imp_right fun hlt => by omega⟩
    · refine ⟨j + 1, by rw [hsize]; ring, .inr ?_⟩
      rw [Nat.add_sub_cancel, ← hsize]
      omega

/-- The fifth double doubles the four places. -/
example : ((List.replicate 5 Binary64.one).foldl push empty).places.size = 8 := by decide

end GrowingBuffer

namespace FlonumVector

open GrowingBuffer

variable {convert : α → Except Failure Binary64} {f : α → Binary64} {items : List α}
  {s s' : ℕ → Option α} {g : ℕ → Binary64} {v : FlonumVector} {i k n : ℕ}

/-! ### All the items -/

/-- **A run** of collecting. -/
theorem holds_collectInto {b : GrowingBuffer} {xs : List Binary64} (hb : b.Holds xs)
    (h : ∀ a ∈ items, convert a = .ok (f a)) :
    ∃ b', collectInto convert items b = .ok b' ∧ b'.Holds (xs ++ items.map f) := by
  induction items generalizing b xs with
  | nil => exact ⟨b, rfl, by simpa using hb⟩
  | cons a items ih =>
    obtain ⟨b', hrun, hb'⟩ := ih (hb.push (f a)) fun a' ha' => h a' (List.mem_cons_of_mem a ha')
    refine ⟨b', ?_, ?_⟩
    · rw [collectInto, h a List.mem_cons_self]
      exact hrun
    · rwa [List.append_assoc, List.singleton_append] at hb'

theorem collect_eq (h : ∀ a ∈ items, convert a = .ok (f a)) :
    collect convert items = .ok (items.map f).toArray := by
  obtain ⟨b, hrun, hb⟩ := holds_collectInto holds_empty h
  rw [collect, hrun, ← List.nil_append (items.map f), ← hb.trimmed]
  rfl

/-! ### A known length -/

/-- **Filling a vector.** From place `i` on, the items go to the places below `k`, where the vector
or the sequence ends, and `k` is the number of items pulled. -/
theorem fillFrom_eq (hik : i ≤ k) (hk : k ≤ v.size) (hend : k = v.size ∨ s k = none)
    (hs : ∀ j, i ≤ j → j < k → ∃ a, s j = some a ∧ convert a = .ok (g j)) :
    fillFrom convert s i v =
      .ok (Array.ofFn fun j : Fin v.size => if i ≤ j ∧ j < k then g j else v[j], k) := by
  induction hd : k - i generalizing i v with
  | zero =>
    obtain rfl : i = k := by omega
    have hsame : (Array.ofFn fun j : Fin v.size => if i ≤ j ∧ j < i then g j else v[j]) = v := by
      refine Array.ext (by simp) fun j _ _ => ?_
      have hno : ¬ (i ≤ j ∧ j < i) := by omega
      simp [hno]
    rw [hsame, fillFrom]
    split
    · rcases hend with hend | hend
      · omega
      · rw [hend]
    · rfl
  | succ d ih =>
    have hi : i < v.size := by omega
    obtain ⟨a, ha, hconvert⟩ := hs i le_rfl (by omega)
    have hsize : (Array.set v i (g i) hi).size = v.size := Array.size_set hi
    rw [fillFrom, dif_pos hi, ha]
    simp only [hconvert]
    rw [ih (by omega) (by omega) (by rwa [hsize]) (fun j hj => hs j (by omega)) (by omega)]
    congr 2
    refine Array.ext (by simp) fun j _ _ => ?_
    simp only [Array.getElem_ofFn, Fin.getElem_fin, Array.getElem_set]
    by_cases hij : i = j
    · subst hij
      have hik' : i < k := by omega
      simp [hik']
    · have hiff : (i + 1 ≤ j ∧ j < k) ↔ (i ≤ j ∧ j < k) := by omega
      rw [if_neg hij]
      exact if_congr hiff rfl rfl

/-- What the sequence holds from the end of the vector on makes no difference. -/
theorem fillFrom_congr (h : ∀ j, i ≤ j → j < v.size → s j = s' j) :
    fillFrom convert s i v = fillFrom convert s' i v := by
  induction hd : v.size - i generalizing i v with
  | zero =>
    have hi : ¬ i < v.size := by omega
    rw [fillFrom, fillFrom, dif_neg hi, dif_neg hi]
  | succ d ih =>
    have hi : i < v.size := by omega
    rw [fillFrom, fillFrom, dif_pos hi, dif_pos hi, h i le_rfl hi]
    cases s' i with
    | none => rfl
    | some a =>
      cases hconvert : convert a with
      | error e => simp only [hconvert]
      | ok x =>
        simp only [hconvert]
        have hsize : (Array.set v i x hi).size = v.size := Array.size_set hi
        exact ih (fun j hj hlt => h j (by omega) (by rwa [hsize] at hlt)) (by omega)

/-- The vector of length `n` that begins with the given doubles and ends with zeros. -/
def padded (n : ℕ) (xs : List Binary64) : FlonumVector :=
  (xs ++ List.replicate (n - xs.length) (Binary64.zero false)).toArray

/-- A vector of known length, when the doubles `xs` fill it or the sequence ends behind them. -/
theorem take_eq {xs : List Binary64} (hle : xs.length ≤ n)
    (hend : xs.length = n ∨ s xs.length = none)
    (hs : ∀ j (hj : j < xs.length), ∃ a, s j = some a ∧ convert a = .ok xs[j]) :
    take convert n s = .ok (padded n xs, xs.length) := by
  have hsize : (Array.replicate n (Binary64.zero false)).size = n := Array.size_replicate
  have hs' : ∀ j, 0 ≤ j → j < xs.length →
      ∃ a, s j = some a ∧ convert a = .ok (xs.getD j default) := by
    intro j _ hj
    rw [List.getD_eq_getElem _ _ hj]
    exact hs j hj
  rw [take, fillFrom_eq (Nat.zero_le _) (by rwa [hsize]) (by rwa [hsize]) hs']
  congr 2
  refine Array.ext (by simp [padded]; omega) fun j hj _ => ?_
  rw [Array.size_ofFn, hsize] at hj
  simp only [padded, Array.getElem_ofFn, Nat.zero_le, true_and, Fin.getElem_fin,
    Array.getElem_replicate, List.getElem_toArray]
  by_cases hjk : j < xs.length
  · rw [if_pos hjk, List.getElem_append_left hjk, List.getD_eq_getElem _ _ hjk]
  · rw [if_neg hjk, List.getElem_append_right (by omega), List.getElem_replicate]

theorem padded_of_length_eq {xs : List Binary64} (h : xs.length = n) :
    padded n xs = xs.toArray := by
  rw [padded, h, Nat.sub_self, List.replicate_zero, List.append_nil]

/-- **A vector of known length from a list**, which may be shorter or longer. -/
theorem take_list (h : ∀ a ∈ items.take n, convert a = .ok (f a)) :
    take convert n (items[·]?) = .ok (padded n ((items.take n).map f), min n items.length) := by
  have hlength : ((items.take n).map f).length = min n items.length := by
    rw [List.length_map, List.length_take]
  rw [← hlength]
  refine take_eq (by omega) ?_ fun j hj => ?_
  · rw [List.getElem?_eq_none_iff]
    omega
  · have hj' : j < (items.take n).length := by rwa [List.length_map] at hj
    have hlt : j < items.length := by
      rw [List.length_take] at hj'
      omega
    refine ⟨items[j], List.getElem?_eq_getElem hlt, ?_⟩
    rw [List.getElem_map, ← h _ (List.getElem_mem hj'), List.getElem_take]

/-- **A vector of known length from a sequence without an end.** -/
theorem take_endless {t : ℕ → α} (h : ∀ j < n, convert (t j) = .ok (g j)) :
    take convert n (fun j => some (t j)) = .ok (((List.range n).map g).toArray, n) := by
  have hlength : ((List.range n).map g).length = n := by simp
  rw [take_eq hlength.le (.inl hlength), hlength, padded_of_length_eq hlength]
  intro j hj
  rw [hlength] at hj
  exact ⟨t j, rfl, by simp [h j hj]⟩

theorem take_congr (h : ∀ j < n, s j = s' j) : take convert n s = take convert n s' :=
  fillFrom_congr fun j _ hj => h j (by rwa [Array.size_replicate] at hj)

/-! ### Functions -/

theorem build_eq {p : ℕ → α} (h : ∀ j < n, convert (p j) = .ok (g j)) :
    build convert n p = .ok ((List.range n).map g).toArray := by
  have hs : ∀ j < n, (if j < n then some (p j) else none) = some (p j) := fun j hj => if_pos hj
  rw [build, take_congr hs, take_endless h]
  rfl

/-- The elements of vectors at one place. -/
def row (vs : List FlonumVector) (j : ℕ) : List Binary64 := vs.map fun v => v.getD j default

theorem mapRows_eq {p : List Binary64 → α} {vs : List FlonumVector}
    (h : ∀ j < v.size, convert (p (row (v :: vs) j)) = .ok (g j)) :
    mapRows convert p (v :: vs) = .ok ((List.range v.size).map g).toArray :=
  build_eq h

theorem sameLengths_eq_ok {operation : String} {vs : List FlonumVector}
    (h : ∀ w ∈ vs, w.size = v.size) : sameLengths operation (v :: vs) = .ok () := by
  rw [sameLengths]
  exact if_pos (by simpa using h)

/-! ### The constructions -/

/-- The ways to construct a vector, from values that `convert` turns into the doubles that `f`
gives. -/
structure Construction (convert : α → Except Failure Binary64) (f : α → Binary64) : Prop where
  /-- Without a length the vector holds all the converted values. -/
  growing : ∀ items : List α, (∀ a ∈ items, convert a = .ok (f a)) →
    collect convert items = .ok (items.map f).toArray
  /-- After any number of values the growing buffer holds these, in no more places than
  needed. -/
  growing_holds : ∀ items : List α, (∀ a ∈ items, convert a = .ok (f a)) → ∀ k ≤ items.length,
    ∃ b, collectInto convert (items.take k) .empty = .ok b ∧ b.Holds ((items.take k).map f)
  /-- With a length the vector begins with the converted values and ends with zeros, and only as
  many values are pulled as fit. Values that do not fit need not be convertible. -/
  fixed : ∀ (n : ℕ) (items : List α), (∀ a ∈ items.take n, convert a = .ok (f a)) →
    take convert n (items[·]?) = .ok (padded n ((items.take n).map f), min n items.length)
  /-- From a sequence without an end just as many values are pulled as the vector has
  elements. -/
  fixed_endless : ∀ (n : ℕ) (s : ℕ → α), (∀ i < n, convert (s i) = .ok (f (s i))) →
    take convert n (fun i => some (s i)) =
      .ok (((List.range n).map fun i => f (s i)).toArray, n)
  /-- What a sequence holds past the length of the vector makes no difference. -/
  fixed_congr : ∀ (n : ℕ) (s s' : ℕ → Option α), (∀ i < n, s i = s' i) →
    take convert n s = take convert n s'
  /-- With a length as many as the values, the vector is the one without a length. -/
  fixed_length : ∀ items : List α, (∀ a ∈ items, convert a = .ok (f a)) →
    take convert items.length (items[·]?) =
      .ok ((items.map f).toArray, items.length)
  /-- The vector of a function of the index. -/
  function : ∀ (n : ℕ) (p : ℕ → α), (∀ i < n, convert (p i) = .ok (f (p i))) →
    build convert n p = .ok ((List.range n).map fun i => f (p i)).toArray
  /-- The vector of a function of the elements at equal places of vectors of one length. -/
  map : ∀ operation (p : List Binary64 → α) (v : FlonumVector) (vs : List FlonumVector),
    (∀ w ∈ vs, w.size = v.size) →
    (∀ i < v.size, convert (p (row (v :: vs) i)) = .ok (f (p (row (v :: vs) i)))) →
    sameLengths operation (v :: vs) = .ok () ∧
      mapRows convert p (v :: vs) =
        .ok ((List.range v.size).map fun i => f (p (row (v :: vs) i))).toArray

theorem constructs (convert : α → Except Failure Binary64) (f : α → Binary64) :
    Construction convert f where
  growing := fun _ h => collect_eq h
  growing_holds := by
    intro items h k _
    exact holds_collectInto holds_empty fun a ha => h a (List.mem_of_mem_take ha)
  fixed := fun _ _ h => take_list h
  fixed_endless := fun _ _ h => take_endless h
  fixed_congr := fun _ _ _ h => take_congr h
  fixed_length := by
    intro items h
    have hitems : ∀ a ∈ items.take items.length, convert a = .ok (f a) := by
      rwa [List.take_length]
    rw [take_list hitems, List.take_length, padded_of_length_eq (List.length_map f), Nat.min_self]
  function := fun _ _ h => build_eq h
  map := fun _ _ _ _ hsize h => ⟨sameLengths_eq_ok hsize, mapRows_eq h⟩

end FlonumVector

namespace Catalogue

open FlonumVector

variable {f : Value → Binary64} {values : Value} {items : List Value}

/-! ### The operations -/

theorem collectedVector_null (hv : values.items = .ok items)
    (h : ∀ v ∈ items, v.element = .ok (f v)) :
    collectedVector values .null =
      .ok (.pair (freshVector (items.map f).toArray) (.integer items.length)) := by
  rw [collectedVector, hv, ok_bind, collect_eq h, ok_bind, pure_eq_ok]

theorem collectedVector_natCast (hv : values.items = .ok items) (n : ℕ)
    (h : ∀ v ∈ items.take n, v.element = .ok (f v)) :
    collectedVector values (.integer n) =
      .ok (.pair (freshVector (padded n ((items.take n).map f)))
        (.integer (min n items.length : ℕ))) := by
  simp only [collectedVector, Value.checkNatural_natCast, ok_bind, hv, List.getElem?_toArray]
  by_cases hn : n = 0
  · subst hn
    simp [padded]
  · rw [if_neg hn, take_list h, ok_bind, pure_eq_ok]

theorem vectorOfItems_eq (hv : values.items = .ok items)
    (h : ∀ v ∈ items, v.element = .ok (f v)) :
    vectorOfItems values = .ok (freshVector (items.map f).toArray) := by
  have hlist := Value.toVector_list h
  cases values with
  | vector v cell =>
    -- a vector is copied, and its elements convert to themselves
    obtain rfl : v.toList.map .double = items := Except.ok.inj hv
    have hf : ∀ x ∈ v.toList, f (.double x) = x := fun x hx =>
      (Except.ok.inj (h (.double x) (List.mem_map_of_mem hx))).symm
    have hsame : (v.toList.map .double).map f = v.toList := by
      rw [List.map_map]
      exact (List.map_congr_left hf).trans (List.map_id v.toList)
    rw [vectorOfItems, hsame]
  | _ => simp only [vectorOfItems, hv, ok_bind, hlist, pure_eq_ok]

theorem builtVector_eq {name : String} {p : ℕ → Value} (hname : builder? name = some p) (n : ℕ)
    (h : ∀ i < n, (p i).element = .ok (f (p i))) :
    builtVector (.integer n) (.text name) =
      .ok (freshVector ((List.range n).map fun i => f (p i)).toArray) := by
  simp only [builtVector, Value.checkNatural_natCast, ok_bind, hname, build_eq h, pure_eq_ok]

theorem mappedVector_eq {name : String} {arity : ℕ} {p : List Binary64 → Binary64}
    (hname : mapper? name = some (arity, p)) {operands : List Value} {v : FlonumVector}
    {vs : List FlonumVector} (hvs : Value.checkVectors "flvector_map" operands = .ok (v :: vs))
    (hsize : ∀ w ∈ vs, w.size = v.size) (harity : (v :: vs).length = arity) :
    mappedVector (.text name) operands =
      .ok (freshVector ((List.range v.size).map fun i => p (row (v :: vs) i)).toArray) := by
  have hmap : mapRows .ok p (v :: vs) =
      .ok ((List.range v.size).map fun i => p (row (v :: vs) i)).toArray :=
    mapRows_eq fun _ _ => rfl
  cases operands with
  | nil => exact absurd hvs (by simp [Value.checkVectors])
  | cons operand operands =>
    simp [mappedVector, hvs, sameLengths_eq_ok hsize, hname, harity, hmap]

/-- What the operations construct from a value with items, and from functions with a name. -/
structure ConstructionOperations : Prop where
  /-- A growing vector, a vector with a length as many as the items, and a vector made of all the
  items at once are the same. -/
  collected : ∀ (f : Value → Binary64) (values : Value) (items : List Value),
    values.items = .ok items → (∀ v ∈ items, v.element = .ok (f v)) →
    collectedVector values .null =
        .ok (.pair (freshVector (items.map f).toArray) (.integer items.length)) ∧
      collectedVector values (.integer items.length) = collectedVector values .null ∧
      vectorOfItems values = .ok (freshVector (items.map f).toArray)
  /-- A vector with any length, and the number of items pulled. -/
  collected_fixed : ∀ (f : Value → Binary64) (values : Value) (items : List Value) (n : ℕ),
    values.items = .ok items → (∀ v ∈ items.take n, v.element = .ok (f v)) →
    collectedVector values (.integer n) =
      .ok (.pair (freshVector (padded n ((items.take n).map f)))
        (.integer (min n items.length : ℕ)))
  /-- The vector of a function of the index. -/
  built : ∀ (f : Value → Binary64) (name : String) (p : ℕ → Value) (n : ℕ),
    builder? name = some p → (∀ i < n, (p i).element = .ok (f (p i))) →
    builtVector (.integer n) (.text name) =
      .ok (freshVector ((List.range n).map fun i => f (p i)).toArray)
  /-- The vector of a function of the elements at equal places. -/
  mapped : ∀ (name : String) (p : List Binary64 → Binary64) (operands : List Value)
    (v : FlonumVector) (vs : List FlonumVector),
    mapper? name = some ((v :: vs).length, p) →
    Value.checkVectors "flvector_map" operands = .ok (v :: vs) → (∀ w ∈ vs, w.size = v.size) →
    mappedVector (.text name) operands =
      .ok (freshVector ((List.range v.size).map fun i => p (row (v :: vs) i)).toArray)

theorem constructionOperations : ConstructionOperations where
  collected := by
    intro f values items hv h
    have hnull := collectedVector_null hv h
    refine ⟨hnull, ?_, vectorOfItems_eq hv h⟩
    rw [collectedVector_natCast hv items.length (by rwa [List.take_length]), hnull,
      List.take_length, padded_of_length_eq (List.length_map f), Nat.min_self]
  collected_fixed := fun _ _ _ n hv h => collectedVector_natCast hv n h
  built := fun _ _ _ n hname h => builtVector_eq hname n h
  mapped := fun _ _ _ _ _ hname hvs hsize => mappedVector_eq hname hvs hsize rfl

/-- **All constructions agree.** For values of any kind and any conversion of them, the growing
buffer, the vector of known length and the functions construct the vector of the converted values,
and so do the operations. The buffer is written to at a place that it has. -/
theorem constructions_agree :
    (∀ {α : Type} (convert : α → Except Failure Binary64) (f : α → Binary64),
      Construction convert f) ∧
    (∀ (b : GrowingBuffer) (x : Binary64), b.count < (b.push x).places.size ∧
      (b.push x).places[b.count]? = some x ∧
        ∀ i < b.count, (b.push x).places[i]? = b.places[i]?) ∧
    ConstructionOperations := by
  refine ⟨fun convert f => constructs convert f, fun b x => ?_, constructionOperations⟩
  obtain ⟨hwritten, hkept⟩ := b.getElem?_push x
  exact ⟨(Array.getElem?_eq_some_iff.mp hwritten).1, hwritten, hkept⟩

end Catalogue

end ExactNumerics
