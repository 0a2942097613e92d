import ExactNumerics.Proofs.Session.Step
import ExactNumerics.Proofs.Value.Cells

/-!
# What names mean

A name means a value, and the vectors in it may be in cells. What is said of a session here is said
of its vectors and of the meaning of its names, and not of how either is kept.

In a *sound* session every cell that shows under a name exists, and the vector that a name means is
the one in its cell at present. Storing an answer and overwriting a vector keep a session sound.

## Main definitions

* `Session.vectorAt`, `Session.meaning` — the vector in a cell, and the meaning of a name
* `Session.Sound` — every name means what is in its cells

## Main results

* `Session.put_cases`, `Session.meaning_put_of_ne` — names after an answer was stored
* `Session.meaning_overwriteCell` — names after a vector was overwritten
* `Session.Sound.put`, `Session.Sound.overwriteCell` — sound sessions stay sound
-/

namespace ExactNumerics

/-! ### Lists of named things -/

section Lookup

variable {β γ : Type} {l : List (String × β)} {name other : String}

theorem lookup_filter_ne (h : other ≠ name) :
    (l.filter (·.1 ≠ name)).lookup other = l.lookup other := by
  induction l with
  | nil => rfl
  | cons p l ih =>
    obtain ⟨key, b⟩ := p
    by_cases hkey : key = name
    · subst hkey
      rw [List.filter_cons_of_neg (by simp), List.lookup_cons, ih, beq_false_of_ne h]
    · rw [List.filter_cons_of_pos (by simpa using hkey), List.lookup_cons, List.lookup_cons, ih]

theorem lookup_map_snd (f : β → γ) :
    (l.map fun (key, b) => (key, f b)).lookup name = (l.lookup name).map f := by
  induction l with
  | nil => rfl
  | cons p l ih =>
    obtain ⟨key, b⟩ := p
    rw [List.map_cons, List.lookup_cons, List.lookup_cons, ih]
    split <;> rfl

end Lookup

namespace Session

variable {s t : Session} {name other : String} {a : Answer} {c : ℕ} {contents : FlonumVector}

/-- The vector in a cell. -/
def vectorAt (s : Session) (c : ℕ) : FlonumVector := s.vectors.getD c #[]

/-- What a name means. -/
def meaning (s : Session) (name : String) : Option Value := (s.names.lookup name).map s.valueOf

theorem SameStore.vectorAt (h : SameStore s t) (c : ℕ) : t.vectorAt c = s.vectorAt c := by
  rw [Session.vectorAt, Session.vectorAt, h.vectors]

theorem SameStore.meaning (h : SameStore s t) (name : String) :
    t.meaning name = s.meaning name := by
  rw [Session.meaning, Session.meaning, h.names, h.valueOf]

/-- The cells that show in a value exist, and the value is in its cell if it is a vector. -/
structure Admits (s : Session) (v : Value) : Prop where
  /-- Cells that show exist. -/
  lt_size : ∀ c ∈ v.cells, c < s.vectors.size
  /-- A vector is the one in its cell. -/
  current : ∀ x c, v = .vector x (some c) → x = s.vectorAt c

theorem Admits.lt_of_vector {x : FlonumVector} (h : s.Admits (.vector x (some c))) :
    c < s.vectors.size :=
  h.lt_size c (by simp [Value.cells, Value.vectors])

theorem Admits.congr {v : Value} (h : s.Admits v) (hs : SameStore s t) : t.Admits v := by
  refine ⟨fun c hc => ?_, fun x c hx => ?_⟩
  · rw [hs.vectors]
    exact h.lt_size c hc
  · rw [hs.vectorAt]
    exact h.current x c hx

/-- The vector in a cell that exists. -/
theorem admits_vectorAt (hc : c < s.vectors.size) : s.Admits (.vector (s.vectorAt c) (some c)) := by
  refine ⟨fun i hi => ?_, fun x i hx => ?_⟩
  · have hic : i = c := by simpa [Value.cells, Value.vectors] using hi
    rw [hic]
    exact hc
  · obtain ⟨rfl, hci⟩ := Value.vector.inj hx
    rw [Option.some.inj hci]

/-- A value that is not a vector. -/
theorem admits_of_ne_vector {v : Value} (hlt : ∀ c ∈ v.cells, c < s.vectors.size)
    (h : ∀ x cell, v ≠ .vector x cell) : s.Admits v :=
  ⟨hlt, fun x c hx => absurd hx (h x (some c))⟩

/-- A value that shows no cell. -/
theorem admits_of_cells_eq_nil {v : Value} (h : v.cells = []) : s.Admits v := by
  refine ⟨fun c hc => ?_, fun x c hx => ?_⟩
  · rw [h] at hc
    exact absurd hc List.not_mem_nil
  · rw [hx] at h
    exact absurd h (by simp [Value.cells, Value.vectors])

/-- A session of which the names mean what is in its cells. -/
def Sound (s : Session) : Prop := ∀ name v, s.meaning name = some v → s.Admits v

theorem Sound.congr (h : s.Sound) (hs : SameStore s t) : t.Sound := by
  intro name v hv
  rw [hs.meaning] at hv
  exact (h name v hv).congr hs

/-- At first there are neither vectors nor names. -/
theorem sound_start (desk : Desk) : Sound { desk } := fun _ _ h => absurd h (by simp [meaning])

/-! ### Storing an answer -/

/-- **How an answer is stored**, after cells that do not exist were forgotten. -/
theorem put_cases (s : Session) (name : String) (a : Answer) :
    (∃ x c, a.toValue.known s.vectors.size = .vector x (some c) ∧
      (s.put name a).vectors = s.vectors ∧
      (s.put name a).meaning name = some (.vector (s.vectorAt c) (some c))) ∨
    (∃ x, a.toValue.known s.vectors.size = .vector x none ∧
      (s.put name a).vectors = s.vectors.push x ∧
      (s.put name a).meaning name = some (.vector x (some s.vectors.size))) ∨
    ((∀ x cell, a.toValue.known s.vectors.size ≠ .vector x cell) ∧
      (s.put name a).vectors = s.vectors ∧
      (s.put name a).meaning name = some (a.toValue.known s.vectors.size)) := by
  have hknown : (a.map (·.known s.vectors.size)).toValue = a.toValue.known s.vectors.size :=
    a.toValue_map
  simp only [meaning, put, hknown]
  split
  · rename_i x c hx
    refine .inl ⟨x, c, hx, rfl, ?_⟩
    rw [List.lookup_cons_self]
    rfl
  · rename_i x hx
    refine .inr (.inl ⟨x, hx, rfl, ?_⟩)
    rw [List.lookup_cons_self, Option.map_some, valueOf, Array.getD_eq_getD_getElem?,
      Array.getElem?_push_size]
    rfl
  · rename_i hsome hnone
    refine .inr (.inr ⟨fun x cell hx => ?_, rfl, ?_⟩)
    · cases cell with
      | none => exact hnone x hx
      | some c => exact hsome x c hx
    · rw [List.lookup_cons_self, Option.map_some, valueOf, hknown]

/-- The vectors stay, and there may be one more. -/
theorem vectors_put (s : Session) (name : String) (a : Answer) :
    (s.put name a).vectors = s.vectors ∨ ∃ x, (s.put name a).vectors = s.vectors.push x := by
  rcases put_cases s name a with ⟨x, c, -, h, -⟩ | ⟨x, -, h, -⟩ | ⟨-, h, -⟩
  · exact .inl h
  · exact .inr ⟨x, h⟩
  · exact .inl h

theorem size_le_size_put : s.vectors.size ≤ (s.put name a).vectors.size := by
  rcases vectors_put s name a with h | ⟨x, h⟩
  · exact Nat.le_of_eq (congrArg Array.size h).symm
  · rw [h, Array.size_push]
    exact Nat.le_succ _

theorem vectorAt_put (hc : c < s.vectors.size) : (s.put name a).vectorAt c = s.vectorAt c := by
  rw [vectorAt, vectorAt]
  rcases vectors_put s name a with h | ⟨x, h⟩
  · rw [h]
  rw [h, Array.getD_eq_getD_getElem?, Array.getD_eq_getD_getElem?, Array.getElem?_push_lt hc,
    Array.getElem?_eq_getElem hc]

theorem lookup_put_of_ne (h : other ≠ name) :
    (s.put name a).names.lookup other = s.names.lookup other := by
  rw [put]
  split <;>
    rw [List.lookup_cons, beq_false_of_ne h] <;> exact lookup_filter_ne h

/-- **Other names** mean what they meant before. -/
theorem meaning_put_of_ne (hs : s.Sound) (h : other ≠ name) :
    (s.put name a).meaning other = s.meaning other := by
  rw [meaning, meaning, lookup_put_of_ne h]
  cases hh : s.names.lookup other with
  | none => rfl
  | some x =>
    cases x with
    | answer => rfl
    | vector i =>
      have hi : i < s.vectors.size :=
        (hs other (.vector (s.vectorAt i) (some i)) (by rw [meaning, hh]; rfl)).lt_of_vector
      exact congrArg (fun x => some (Value.vector x (some i))) (vectorAt_put hi)

theorem Admits.put {v : Value} (h : s.Admits v) (name : String) (a : Answer) :
    (s.put name a).Admits v := by
  refine ⟨fun c hc => Nat.lt_of_lt_of_le (h.lt_size c hc) size_le_size_put, fun x c hx => ?_⟩
  subst hx
  rw [vectorAt_put h.lt_of_vector]
  exact h.current x c rfl

theorem Sound.put (hs : s.Sound) (name : String) (a : Answer) : (s.put name a).Sound := by
  intro other v hv
  by_cases hname : other ≠ name
  · rw [meaning_put_of_ne hs hname] at hv
    exact (hs other v hv).put name a
  obtain rfl := not_not.mp hname
  rcases put_cases s other a with ⟨x, c, hx, -, hmean⟩ | ⟨x, -, hvec, hmean⟩ | ⟨hne, hvec, hmean⟩
  · obtain rfl := Option.some.inj (hv.symm.trans hmean)
    refine (admits_vectorAt (Value.lt_of_mem_cells_known (x := a.toValue) ?_)).put other a
    rw [hx]
    simp [Value.cells, Value.vectors]
  · obtain rfl := Option.some.inj (hv.symm.trans hmean)
    have hat : (s.put other a).vectorAt s.vectors.size = x := by
      rw [vectorAt, hvec, Array.getD_eq_getD_getElem?, Array.getElem?_push_size, Option.getD_some]
    rw [← hat]
    refine admits_vectorAt ?_
    rw [hvec, Array.size_push]
    exact Nat.lt_succ_self _
  · obtain rfl := Option.some.inj (hv.symm.trans hmean)
    refine admits_of_ne_vector (fun c hc => ?_) hne
    rw [hvec]
    exact Value.lt_of_mem_cells_known hc

/-! ### Overwriting a vector -/

theorem size_overwriteCell : (s.overwriteCell c contents).vectors.size = s.vectors.size :=
  Array.size_setIfInBounds

theorem vectorAt_overwriteCell_self (hc : c < s.vectors.size) :
    (s.overwriteCell c contents).vectorAt c = contents := by
  rw [vectorAt, overwriteCell, Array.getD_eq_getD_getElem?,
    Array.getElem?_setIfInBounds_self_of_lt hc,
    Option.getD_some]

theorem vectorAt_overwriteCell_of_ne {i : ℕ} (h : i ≠ c) :
    (s.overwriteCell c contents).vectorAt i = s.vectorAt i := by
  rw [vectorAt, vectorAt, overwriteCell, Array.getD_eq_getD_getElem?, Array.getD_eq_getD_getElem?,
    Array.getElem?_setIfInBounds_ne h.symm]

/-- The value of a cell that exists, after a vector was overwritten. -/
theorem vectorAt_overwriteCell {i : ℕ} (hi : i < s.vectors.size) :
    Value.vector ((s.overwriteCell c contents).vectorAt i) (some i) =
      (Value.vector (s.vectorAt i) (some i)).renewed c contents := by
  rw [Value.renewed, Value.mapVectors]
  by_cases hic : i = c
  · subst hic
    rw [vectorAt_overwriteCell_self hi, if_pos rfl]
  · rw [vectorAt_overwriteCell_of_ne hic, if_neg fun h => hic (Option.some.inj h)]

/-- **Overwriting a vector** shows under every name that shows its cell. -/
theorem meaning_overwriteCell (hs : s.Sound) (name : String) :
    (s.overwriteCell c contents).meaning name =
      (s.meaning name).map (·.renewed c contents) := by
  rw [meaning, overwriteCell, lookup_map_snd, meaning]
  cases hh : s.names.lookup name with
  | none => rfl
  | some x =>
    cases x with
    | answer a => exact congrArg some a.toValue_map
    | vector i =>
      have hi : i < s.vectors.size :=
        (hs name (.vector (s.vectorAt i) (some i)) (by rw [meaning, hh]; rfl)).lt_of_vector
      exact congrArg some (vectorAt_overwriteCell hi)

theorem Sound.overwriteCell (hs : s.Sound) (c : ℕ) (contents : FlonumVector) :
    (s.overwriteCell c contents).Sound := by
  intro name v hv
  rw [meaning_overwriteCell hs, Option.map_eq_some_iff] at hv
  obtain ⟨w, hw, rfl⟩ := hv
  refine ⟨fun i hi => ?_, fun x i hx => ?_⟩
  · rw [Value.cells_renewed] at hi
    rw [size_overwriteCell]
    exact (hs name w hw).lt_size i hi
  · obtain ⟨y, rfl⟩ := Value.exists_eq_of_renewed_eq hx
    have hadmits := hs name _ hw
    obtain rfl := hadmits.current y i rfl
    rw [← vectorAt_overwriteCell hadmits.lt_of_vector] at hx
    exact (Value.vector.inj hx).1.symm

end Session

end ExactNumerics
