import ExactNumerics.Catalogue.Vectors
import ExactNumerics.Proofs.Failure
import ExactNumerics.Proofs.Value.Cells

/-!
# Operations that answer new vectors

An answer is *detached* if it shows no stored vector, so a vector in it is new. All operations on
vectors have detached answers, with the exception of the one that lists the items of a value and
so hands back vectors of the list that it is given.

## Main definitions

* `Detaches` — a computation with a detached value
* `Operation.Detached` — an operation with detached answers

## Main results

* `Catalogue.detached_of_mem_vectors` — the operations on vectors have detached answers
-/

namespace ExactNumerics

/-- A computation of which the value, if it has one, shows no stored vector. -/
def Detaches (x : Except Failure Value) : Prop := ∀ v, x = .ok v → v.cells = []

namespace Detaches

variable {α : Type} {x y : Except Failure Value} {v : Value}

theorem ok (h : v.cells = []) : Detaches (.ok v) := fun _ hw => Except.ok.inj hw ▸ h

theorem error (f : Failure) : Detaches (.error f) := fun _ h => absurd h (by simp)

theorem bind {z : Except Failure α} {f : α → Except Failure Value} (h : ∀ a, Detaches (f a)) :
    Detaches (z >>= f) := fun v hv => by
  obtain ⟨a, -, ha⟩ := bind_eq_ok.mp hv
  exact h a v ha

theorem ite {c : Prop} [Decidable c] (hx : Detaches x) (hy : Detaches y) :
    Detaches (if c then x else y) := by
  split
  · exact hx
  · exact hy

end Detaches

/-- A list of values that are not vectors. -/
theorem Value.cells_list_map {α : Type} {f : α → Value} {l : List α}
    (h : ∀ a, (f a).vectors = []) : (Value.list (l.map f)).cells = [] := by
  have hnone : vectorsAll (l.map f) = [] :=
    vectorsAll_eq_nil (List.forall_mem_map.mpr fun a _ => h a)
  rw [cells, vectors, hnone, List.filterMap_nil]

namespace Operation

/-- An operation of which the answers show no stored vector. -/
def Detached : Operation → Prop
  | .calculate f => ∀ call a, f call = .ok a → a.toValue.cells = []
  | .overwrite _ => True
  | .search .. | .administer _ => False

variable {p q r : Parameter} {ps : List Parameter}

theorem detached_ofValuesWithin {f : DigitLimit → List Value → Except Failure Value}
    (h : ∀ limit vs, Detaches (f limit vs)) : (ofValuesWithin ps f).Detached := by
  intro call a ha
  simp only [bind_eq_ok] at ha
  obtain ⟨vs, -, v, hv, ha⟩ := ha
  rw [← Except.ok.inj ha]
  exact h call.digits vs v hv

theorem detached_ofValues {f : List Value → Except Failure Value} (h : ∀ vs, Detaches (f vs)) :
    (ofValues ps f).Detached := detached_ofValuesWithin fun _ => h

theorem detached_variadic {f : List Value → Except Failure Value} (h : ∀ vs, Detaches (f vs)) :
    (variadic f).Detached := by
  intro call a ha
  simp only [bind_eq_ok] at ha
  obtain ⟨vs, -, v, hv, ha⟩ := ha
  rw [← Except.ok.inj ha]
  exact h vs.2 v hv

theorem detached_unaryWithin {f : DigitLimit → Value → Except Failure Value}
    (h : ∀ limit x, Detaches (f limit x)) : (unaryWithin p f).Detached := by
  refine detached_ofValuesWithin fun limit vs => ?_
  split
  · exact h _ _
  · exact .error _

theorem detached_unary {f : Value → Except Failure Value} (h : ∀ x, Detaches (f x)) :
    (unary p f).Detached := detached_unaryWithin fun _ => h

theorem detached_binary {f : Value → Value → Except Failure Value}
    (h : ∀ x y, Detaches (f x y)) : (binary p q f).Detached := by
  rw [binary, binaryWithin]
  refine detached_ofValuesWithin fun limit vs => ?_
  split
  · exact h _ _
  · exact .error _

theorem detached_ternary {f : Value → Value → Value → Except Failure Value}
    (h : ∀ x y z, Detaches (f x y z)) : (ternary p q r f).Detached := by
  rw [ternary, ternaryWithin]
  refine detached_ofValuesWithin fun limit vs => ?_
  split
  · exact h _ _ _
  · exact .error _

theorem detached_unaryApproximate {f : Value → Except Failure Value} (h : ∀ x, Detaches (f x)) :
    (unaryApproximate p f).Detached := by
  intro call a ha
  obtain ⟨vs, -, ha⟩ := bind_eq_ok.mp ha
  split at ha
  · obtain ⟨v, hv, ha⟩ := bind_eq_ok.mp ha
    rw [← Except.ok.inj ha]
    exact h _ v hv
  · exact absurd ha (by simp [Value.wrongType])

theorem detached_binaryApproximate {f : Value → Value → Except Failure Value}
    (h : ∀ x y, Detaches (f x y)) : (binaryApproximate p q f).Detached := by
  intro call a ha
  obtain ⟨vs, -, ha⟩ := bind_eq_ok.mp ha
  split at ha
  · obtain ⟨v, hv, ha⟩ := bind_eq_ok.mp ha
    rw [← Except.ok.inj ha]
    exact h _ _ v hv
  · exact absurd ha (by simp [Value.wrongType])

end Operation

namespace Catalogue

open Operation

/-! ### Construction -/

theorem detaches_vectorOfItems (v : Value) : Detaches (vectorOfItems v) := by
  rw [vectorOfItems.eq_def]
  split
  · exact .ok rfl
  · exact .bind fun _ => .bind fun _ => .ok rfl

theorem detaches_constantVector (n x : Value) : Detaches (constantVector n x) :=
  .bind fun _ => .bind fun _ => .ok rfl

theorem detached_of_mem_construction : ∀ x ∈ construction, x.2.Detached := by
  simp only [construction, List.forall_mem_cons]
  exact ⟨detached_variadic fun _ => .bind fun _ => .ok rfl,
    detached_unary detaches_vectorOfItems,
    detached_unary detaches_vectorOfItems,
    detached_unary fun _ => .bind fun _ => .ok rfl,
    detached_binary detaches_constantVector,
    detached_unary fun _ => detaches_constantVector _ _,
    fun _ h => absurd h List.not_mem_nil⟩

/-! ### Functions and sequences -/

theorem detaches_builtVector (n f : Value) : Detaches (builtVector n f) := by
  refine .bind fun n => ?_
  split
  · split
    · exact .bind fun _ => .ok rfl
    · exact .error _
  · exact .error _

theorem detaches_mappedVector (f : Value) (vs : List Value) : Detaches (mappedVector f vs) := by
  refine .ite (.error _) (Detaches.bind fun vs => Detaches.bind fun _ => ?_)
  split
  · split
    · exact .ite (.error _) (.bind fun _ => .ok rfl)
    · exact .error _
  · exact .error _

theorem detaches_collectedVector (values length : Value) :
    Detaches (collectedVector values length) := by
  rw [collectedVector.eq_def]
  split
  · exact .bind fun _ => .bind fun _ => .ok rfl
  · exact .bind fun n => .ite (.ok rfl) (.bind fun _ => .bind fun _ => .ok rfl)

theorem detached_of_mem_building : ∀ x ∈ building, x.2.Detached := by
  simp only [building, List.forall_mem_cons]
  refine ⟨detached_binary detaches_builtVector, fun call a ha => ?_,
    detached_binary detaches_collectedVector, fun _ h => absurd h List.not_mem_nil⟩
  obtain ⟨vs, -, ha⟩ := bind_eq_ok.mp ha
  split at ha
  · obtain ⟨v, hv, ha⟩ := bind_eq_ok.mp ha
    rw [← Except.ok.inj ha]
    exact detaches_mappedVector _ _ v hv
  · exact absurd ha (by simp [Value.wrongType])

/-! ### Elements and ranges -/

theorem cells_elementList (v : FlonumVector) : (elementList v).cells = [] :=
  Value.cells_list_map fun _ => rfl

theorem detaches_lengthOf (v : Value) : Detaches (lengthOf v) := by
  rw [lengthOf.eq_def]
  split
  · exact .ok rfl
  · exact .bind fun _ => .ok rfl

theorem detaches_sliced (v start stop step : Value) : Detaches (sliced v start stop step) := by
  rw [sliced.eq_def]
  split
  · exact .bind fun _ => .ite (.error _) (.bind fun _ => .bind fun _ => .bind fun _ => .ok rfl)
  · exact .error _

theorem detaches_copied (v start stop : Value) : Detaches (copied v start stop) := by
  rw [copied.eq_def]
  split
  · refine .bind fun first => ?_
    split
    · exact .bind fun _ => .bind fun _ => .ok rfl
    · exact .bind fun _ => .bind fun _ => .ok rfl
  · exact .error _

/-- Listing the items of a value is the only operation that hands back what it is given. -/
theorem detached_of_mem_reading : ∀ x ∈ reading, x.1 ≠ "flvector_iter" → x.2.Detached := by
  simp only [reading, List.forall_mem_cons]
  refine ⟨fun _ => detached_unary fun _ => .bind fun v => .ok (cells_elementList v),
    fun _ => detached_unary fun v => ?_, fun h => absurd rfl h,
    fun _ => detached_unary detaches_lengthOf,
    fun _ => detached_unaryWithin fun _ _ => .bind fun _ => .ok rfl,
    fun _ => detached_binary fun _ _ => .ok rfl,
    fun _ => detached_binary fun v i => ?_,
    fun _ => detached_ofValues fun vs => ?_,
    fun _ => detached_ternary detaches_copied, fun _ h => absurd h List.not_mem_nil⟩
  · split
    · exact .ok (cells_elementList _)
    · exact .error _
  · split
    · exact .bind fun _ => .bind fun _ => .ok rfl
    · exact .error _
  · split
    · exact detaches_sliced _ _ _ _
    · exact .error _

/-! ### Overwriting -/

theorem detached_of_mem_writing : ∀ x ∈ writing, x.2.Detached := by
  simp only [writing, List.forall_mem_cons]
  exact ⟨trivial, trivial, trivial, trivial, fun _ h => absurd h List.not_mem_nil⟩

/-! ### Pointwise operations and sums -/

section Pointwise

variable (operation : String) (f : Binary64 → Binary64) (g : Binary64 → Binary64 → Binary64)
  (test : Binary64 → Binary64 → Bool)

theorem detached_pointwise : (pointwise operation f).2.Detached :=
  detached_unary fun _ => .bind fun _ => .ok rfl

theorem detached_approximatePointwise : (approximatePointwise operation f).2.Detached :=
  detached_unaryApproximate fun _ => .bind fun _ => .ok rfl

theorem detaches_zipped (a b : Value) : Detaches (zipped operation g a b) :=
  .bind fun _ => .bind fun _ => .bind fun _ => .ok rfl

theorem detached_pointwise₂ : (pointwise₂ operation g).2.Detached :=
  detached_binary (detaches_zipped operation g)

theorem detached_pointwiseOneOrTwo : (pointwiseOneOrTwo operation f g).2.Detached := by
  refine detached_binary fun a b => ?_
  split
  · exact .bind fun _ => .ok rfl
  · exact detaches_zipped operation g a _

theorem detached_comparison : (comparison operation test).2.Detached :=
  detached_binary fun _ _ => .bind fun _ => .bind fun _ => .bind fun _ =>
    .ok (Value.cells_list_map fun _ => rfl)

end Pointwise

theorem detached_of_mem_elementwise : ∀ x ∈ elementwise, x.2.Detached := by
  simp only [elementwise, List.forall_mem_cons, detached_pointwise, detached_approximatePointwise,
    detached_pointwise₂, detached_pointwiseOneOrTwo, detached_comparison, true_and]
  exact ⟨detached_binaryApproximate (detaches_zipped _ _), fun _ h => absurd h List.not_mem_nil⟩

theorem detached_of_mem_sums : ∀ x ∈ sums, x.2.Detached := by
  simp only [sums, List.forall_mem_cons]
  exact ⟨detached_unary fun _ => .bind fun _ => .ok rfl,
    detached_unary fun _ => .bind fun _ => .ok rfl, fun _ h => absurd h List.not_mem_nil⟩

/-- **The operations on vectors answer new vectors.** -/
theorem detached_of_mem_vectors {name : String} {op : Operation} (h : (name, op) ∈ vectors)
    (hname : name ≠ "flvector_iter") : op.Detached := by
  simp only [vectors, List.mem_append] at h
  rcases h with ((((h | h) | h) | h) | h) | h
  · exact detached_of_mem_construction _ h
  · exact detached_of_mem_building _ h
  · exact detached_of_mem_reading _ h hname
  · exact detached_of_mem_writing _ h
  · exact detached_of_mem_elementwise _ h
  · exact detached_of_mem_sums _ h

end Catalogue

end ExactNumerics
