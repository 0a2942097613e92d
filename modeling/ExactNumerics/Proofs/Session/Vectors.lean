import ExactNumerics.Proofs.Session.Detached
import ExactNumerics.Proofs.Session.Names
import ExactNumerics.Proofs.Session.Overwrite

/-!
# What becomes of the vectors

A step may overwrite one vector, the one that is handed over for the first parameter of an
overwriting operation, and it may make a new one, in which an answer is stored. Everything else
stays, the lengths of all vectors included. So as long as no step has a vector for its target, and
however many names mean it, the vector stays as it is; and what is answered by an operation on
vectors is in a cell that no other name shows, so that changes of the one are never changes of the
other.

## Main definitions

* `Session.target` — the cell of the vector that a request is to overwrite
* `Session.Keeps` — what a step leaves as it is
* `Session.Spares` — no request of a run has the vector in a cell for its target
* `Session.VectorFrame` — what becomes of the vectors of a session

## Main results

* `Session.keeps_step` — one step
* `Session.vectorAt_after`, `Session.meaning_after` — a run of steps
* `Session.vectors_framed` — all sessions
-/

namespace ExactNumerics

/-- The cell of a vector that is stored. -/
def Value.cell? : Value → Option ℕ
  | .vector _ cell => cell
  | _ => none

/-- A value as it is stored: a vector that is in no cell goes to the given one. -/
def Value.placed (cell : ℕ) : Value → Value
  | .vector x none => .vector x (some cell)
  | v => v

theorem Value.placed_of_ne_vector {v : Value} {cell : ℕ} (h : ∀ x, v ≠ .vector x none) :
    v.placed cell = v := by
  rw [placed.eq_def]
  split
  · exact absurd rfl (h _)
  · rfl

namespace Session

variable {s t u : Session} {r : Request} {a : Answer} {f : Failure} {c : ℕ}

/-! ### Operands -/

mutual

/-- Terms have values of the session. -/
theorem admits_of_resolve (hs : s.Sound) :
    ∀ (x : Term) {v : Value}, s.resolve x = .ok v → s.Admits v
  | .value w, v, h => by
    rw [resolve, Except.ok.injEq] at h
    rw [← h]
    exact admits_of_cells_eq_nil w.cells_unstored
  | .stored name, v, h => by
    rw [resolve] at h
    split at h
    · rename_i x hx
      refine hs name v ?_
      rw [meaning, hx, Option.map_some, Except.ok.inj h]
    · exact absurd h (by simp)
  | .list ts, v, h => by
    rw [resolve] at h
    obtain ⟨vs, hvs, h⟩ := bind_eq_ok.mp h
    rw [← Except.ok.inj h]
    refine admits_of_ne_vector (fun c hc => ?_) fun _ _ hne => Value.noConfusion hne
    obtain ⟨w, hw, hc⟩ := Value.exists_of_mem_cells_list hc
    exact (admits_of_resolveAll hs ts hvs w hw).lt_size c hc

theorem admits_of_resolveAll (hs : s.Sound) :
    ∀ (ts : List Term) {vs : List Value}, s.resolveAll ts = .ok vs → ∀ v ∈ vs, s.Admits v
  | [], vs, h => by
    rw [resolveAll, Except.ok.injEq] at h
    rw [← h]
    exact fun v hv => absurd hv List.not_mem_nil
  | x :: ts, vs, h => by
    rw [resolveAll] at h
    obtain ⟨w, hw, h⟩ := bind_eq_ok.mp h
    obtain ⟨ws, hws, h⟩ := bind_eq_ok.mp h
    rw [← Except.ok.inj h]
    exact List.forall_mem_cons.mpr
      ⟨admits_of_resolve hs x hw, admits_of_resolveAll hs ts hws⟩

end

/-- Operands are values of the session. -/
theorem admits_operand (hs : s.Sound) {call : Call} {name : String} {v : Value}
    (h : s.handsOver r = .ok call) (hv : call.operand name = some v) : s.Admits v := by
  simp only [handsOver, bind_eq_ok] at h
  obtain ⟨positional, hpos, named, hnamed, h⟩ := h
  obtain rfl := Except.ok.inj h
  rw [Call.operand, Option.or_eq_some_iff] at hv
  rcases hv with hv | ⟨-, hv⟩
  · exact admits_of_resolveAll hs _ hpos v (List.mem_of_head? hv)
  · obtain ⟨before, later, heq, -⟩ := List.lookup_eq_some_iff.mp hv
    have hmem : (name, v) ∈ named := by
      change named = _ at heq
      rw [heq]
      exact List.mem_append_right _ List.mem_cons_self
    obtain ⟨⟨key, x⟩, -, hx⟩ := exists_of_mem_mapM hnamed hmem
    obtain ⟨w, hw, hx⟩ := bind_eq_ok.mp hx
    obtain ⟨-, rfl⟩ := Prod.mk.inj (Except.ok.inj hx)
    exact admits_of_resolve hs x hw

/-- The cell of the vector that a request is to overwrite. -/
def target (s : Session) (r : Request) : Option ℕ :=
  match Catalogue.overwriters.lookup r.operation, s.handsOver r with
  | some parameter, .ok call => (call.operand parameter).bind Value.cell?
  | _, _ => none

/-- A request for another operation has no target. -/
theorem target_eq_none (h : r.operation ∉ Catalogue.overwriters.map Prod.fst) :
    s.target r = none := by
  have hnone : Catalogue.overwriters.lookup r.operation = none :=
    List.lookup_eq_none_iff.mpr fun p hp => by
      simpa using fun heq : r.operation = p.1 => h (heq ▸ List.mem_map_of_mem hp)
  rw [target, hnone]

/-- **What is overwritten** is the target, and it keeps its length. -/
theorem target_eq_cell (hs : s.Sound) {call : Call} {g : Call → Except Failure Overwrite}
    {w : Overwrite} (hop : Catalogue.find? r.operation = some (.overwrite g))
    (hcall : s.handsOver r = .ok call) (hw : g call = .ok w) :
    s.target r = w.cell ∧
      ∀ c, w.cell = some c → c < s.vectors.size ∧ w.contents.size = (s.vectorAt c).size := by
  obtain ⟨parameter, hparam, v, hv, x, rfl, hsize⟩ := Catalogue.fits_operand hop hw
  have hadmits := admits_operand hs hcall hv
  refine ⟨?_, fun c hc => ?_⟩
  · rw [target, hparam, hcall]
    dsimp only
    rw [hv]
    rfl
  · rw [hc] at hadmits
    exact ⟨hadmits.lt_of_vector, by rw [hsize, hadmits.current x c rfl]⟩

/-! ### One step -/

/-- What stays when only the vector in the cell `target` is overwritten, and an answer is stored
only under the name `store`. -/
structure Keeps (target : Option ℕ) (store : Option String) (s t : Session) : Prop where
  /-- No vector is lost. -/
  size_le : s.vectors.size ≤ t.vectors.size
  /-- No vector changes its length. -/
  length : ∀ c < s.vectors.size, (t.vectorAt c).size = (s.vectorAt c).size
  /-- Other vectors than the target stay as they are. -/
  vectorAt : ∀ c < s.vectors.size, target ≠ some c → t.vectorAt c = s.vectorAt c
  /-- Other names keep their meaning, unless the target shows in it. -/
  meaning : ∀ name, store ≠ some name →
    (∀ v, s.meaning name = some v → ∀ c ∈ v.cells, target ≠ some c) →
    t.meaning name = s.meaning name

namespace Keeps

variable {target : Option ℕ} {store : Option String}

theorem of_sameStore (h : SameStore s t) : Keeps target store s t where
  size_le := Nat.le_of_eq (congrArg Array.size h.vectors).symm
  length c _ := by rw [h.vectorAt]
  vectorAt c _ _ := h.vectorAt c
  meaning name _ _ := h.meaning name

theorem trans (h : Keeps target store s t) (h' : Keeps target store t u) :
    Keeps target store s u where
  size_le := Nat.le_trans h.size_le h'.size_le
  length c hc := (h'.length c (Nat.lt_of_lt_of_le hc h.size_le)).trans (h.length c hc)
  vectorAt c hc hne :=
    (h'.vectorAt c (Nat.lt_of_lt_of_le hc h.size_le) hne).trans (h.vectorAt c hc hne)
  meaning name hname hcells := by
    have hmean := h.meaning name hname hcells
    rw [← hmean]
    exact h'.meaning name hname (by rwa [hmean])

/-- Storing an answer. -/
theorem put (hs : s.Sound) (name : String) (a : Answer) :
    Keeps target (some name) s (s.put name a) where
  size_le := size_le_size_put
  length c hc := by rw [vectorAt_put hc]
  vectorAt c hc _ := vectorAt_put hc
  meaning other hname _ := meaning_put_of_ne hs fun h => hname (congrArg some h.symm)

/-- Overwriting the target. -/
theorem overwriteCell (hs : s.Sound) {contents : FlonumVector} (hc : c < s.vectors.size)
    (hsize : contents.size = (s.vectorAt c).size) :
    Keeps (some c) store s (s.overwriteCell c contents) where
  size_le := Nat.le_of_eq size_overwriteCell.symm
  length i _ := by
    by_cases hic : i = c
    · subst hic
      rw [vectorAt_overwriteCell_self hc, hsize]
    · rw [vectorAt_overwriteCell_of_ne hic]
  vectorAt i _ hne := vectorAt_overwriteCell_of_ne fun h => hne (congrArg some h.symm)
  meaning name _ hcells := by
    rw [meaning_overwriteCell hs]
    cases hv : s.meaning name with
    | none => rfl
    | some v =>
      exact congrArg some (Value.renewed_of_notMem fun h => hcells v hv c h rfl)

end Keeps

theorem Sound.keep (hs : s.Sound) (store : Option String) (a : Answer) :
    (s.keep store a).Sound := by
  cases store with
  | none => exact hs
  | some name => exact hs.put name a

theorem Keeps.keep {target : Option ℕ} (hs : s.Sound) (store : Option String) (a : Answer) :
    Keeps target store s (s.keep store a) := by
  cases store with
  | none => exact .of_sameStore (.refl s)
  | some name => exact .put hs name a

/-- What an operation does, it does to the target of the request. -/
theorem keeps_of_yields (hs : s.Sound) {op : Operation} {call : Call}
    (hop : Catalogue.find? r.operation = some op) (hcall : s.handsOver r = .ok call)
    (h : op.Yields call s a t) (store : Option String) :
    t.Sound ∧ Keeps (s.target r) store s t := by
  cases op with
  | calculate g => exact ⟨hs.congr h.2, .of_sameStore h.2⟩
  | search access g => exact ⟨hs.congr h, .of_sameStore h⟩
  | administer g => exact ⟨hs.congr h, .of_sameStore h⟩
  | overwrite g =>
    obtain ⟨w, hw, -, hsame⟩ := h
    obtain ⟨htarget, hfits⟩ := target_eq_cell hs hop hcall hw
    rw [htarget]
    rw [overwrite] at hsame
    cases hcell : w.cell with
    | none =>
      rw [hcell] at hsame
      exact ⟨hs.congr hsame, .of_sameStore hsame⟩
    | some c =>
      rw [hcell] at hsame
      obtain ⟨hc, hsize⟩ := hfits c hcell
      exact ⟨(hs.overwriteCell c _).congr hsame,
        (Keeps.overwriteCell hs hc hsize).trans (.of_sameStore hsame)⟩

/-- **What a step keeps.** -/
theorem keeps_step (hs : s.Sound) (r : Request) :
    (s.step r).2.Sound ∧ Keeps (s.target r) r.store s (s.step r).2 := by
  cases hout : (s.step r).1.outcome with
  | error f => exact ⟨hs.congr (step_error hout), .of_sameStore (step_error hout)⟩
  | ok a =>
    obtain ⟨op, call, t, hop, hcall, hyields, hsame⟩ := step_ok hout
    obtain ⟨ht, hkeeps⟩ := keeps_of_yields hs hop hcall hyields r.store
    exact ⟨(ht.keep r.store a).congr hsame,
      (hkeeps.trans (.keep ht r.store a)).trans (.of_sameStore hsame)⟩

/-! ### New vectors -/

/-- An answer that shows no cell is stored as it is, and in a new cell if it is a vector. -/
theorem meaning_put (h : a.toValue.cells = []) (name : String) :
    (s.put name a).meaning name = some (a.toValue.placed s.vectors.size) := by
  have hcases := put_cases s name a
  rw [Value.known_of_cells_eq_nil h] at hcases
  rcases hcases with ⟨x, c, hx, -, -⟩ | ⟨x, hx, -, hmean⟩ | ⟨hne, -, hmean⟩
  · rw [hx] at h
    exact absurd h (by simp [Value.cells, Value.vectors])
  · rw [hmean, hx, Value.placed]
  · rw [hmean, Value.placed_of_ne_vector fun x hx => hne x none hx]

/-- A new vector is made when an answer is stored, and not by the operation. -/
theorem size_of_yields {op : Operation} {call : Call} (h : op.Yields call s a t) :
    t.vectors.size = s.vectors.size := by
  cases op with
  | calculate g => exact congrArg Array.size h.2.vectors
  | search access g => exact congrArg Array.size h.vectors
  | administer g => exact congrArg Array.size h.vectors
  | overwrite g =>
    obtain ⟨w, -, -, hsame⟩ := h
    rw [hsame.vectors, overwrite]
    split
    · exact size_overwriteCell
    · rfl

/-- An operation with detached answers. -/
theorem cells_of_yields {op : Operation} {call : Call} (hop : op.Detached)
    (h : op.Yields call s a t) : a.toValue.cells = [] := by
  cases op with
  | calculate g => exact hop call a h.1
  | search access g => exact hop.elim
  | administer g => exact hop.elim
  | overwrite g =>
    obtain ⟨w, -, rfl, -⟩ := h
    rfl

/-- **A vector that is answered is new.** The answer shows no vector that is stored. When it is
stored itself, it is put in a new cell, which no other name shows. -/
theorem fresh_step (hs : s.Sound) (hop : r.operation ∈ Catalogue.vectors.map Prod.fst)
    (hname : r.operation ≠ "flvector_iter") (hout : (s.step r).1.outcome = .ok a) :
    a.toValue.cells = [] ∧ ∀ name, r.store = some name →
      (s.step r).2.meaning name = some (a.toValue.placed s.vectors.size) ∧
        ∀ other v, other ≠ name → (s.step r).2.meaning other = some v →
          ∀ c ∈ v.cells, c < s.vectors.size := by
  obtain ⟨op, call, t, hfind, hcall, hyields, hsame⟩ := step_ok hout
  have hdetached : op.Detached := by
    obtain ⟨⟨key, op'⟩, hmem, rfl⟩ := List.mem_map.mp hop
    have hall : (r.operation, op') ∈ Catalogue.all :=
      List.mem_append_left _ (List.mem_append_right _ hmem)
    obtain rfl := Option.some.inj (hfind.symm.trans (Catalogue.find?_eq_some_iff.mpr hall))
    exact Catalogue.detached_of_mem_vectors hmem hname
  have hcells := cells_of_yields hdetached hyields
  refine ⟨hcells, fun name hstore => ?_⟩
  rw [hstore] at hsame
  have ht := (keeps_of_yields hs hfind hcall hyields none).1
  refine ⟨?_, fun other v hne hv c hc => ?_⟩
  · rw [hsame.meaning, ← size_of_yields hyields]
    exact meaning_put hcells name
  · rw [hsame.meaning, keep, meaning_put_of_ne ht hne] at hv
    rw [← size_of_yields hyields]
    exact (ht other v hv).lt_size c hc

/-! ### Runs of steps -/

/-- No request of a run has the vector in a cell for its target. -/
def Spares (c : ℕ) : Session → List Request → Prop
  | _, [] => True
  | s, r :: rs => s.target r ≠ some c ∧ Spares c (s.step r).2 rs

theorem sound_after (hs : s.Sound) (rs : List Request) : (s.after rs).Sound := by
  induction rs generalizing s with
  | nil => exact hs
  | cons r rs ih => exact ih (keeps_step hs r).1

/-- No vector is lost in a run, and none changes its length. -/
theorem length_after (hs : s.Sound) (rs : List Request) (hc : c < s.vectors.size) :
    c < (s.after rs).vectors.size ∧ ((s.after rs).vectorAt c).size = (s.vectorAt c).size := by
  induction rs generalizing s with
  | nil => exact ⟨hc, rfl⟩
  | cons r rs ih =>
    obtain ⟨ht, hkeeps⟩ := keeps_step hs r
    obtain ⟨hlt, hlength⟩ := ih ht (Nat.lt_of_lt_of_le hc hkeeps.size_le)
    exact ⟨hlt, hlength.trans (hkeeps.length c hc)⟩

/-- **A vector that is spared** stays as it is. -/
theorem vectorAt_after (hs : s.Sound) {rs : List Request} (hc : c < s.vectors.size)
    (h : Spares c s rs) : (s.after rs).vectorAt c = s.vectorAt c := by
  induction rs generalizing s with
  | nil => rfl
  | cons r rs ih =>
    obtain ⟨ht, hkeeps⟩ := keeps_step hs r
    exact (ih ht (Nat.lt_of_lt_of_le hc hkeeps.size_le) h.2).trans (hkeeps.vectorAt c hc h.1)

/-- **A name keeps its meaning** as long as nothing else is stored under it and the vectors that it
shows are spared. -/
theorem meaning_after (hs : s.Sound) {rs : List Request} {name : String} {v : Value}
    (hv : s.meaning name = some v) (hstore : ∀ r ∈ rs, r.store ≠ some name)
    (hcells : ∀ c ∈ v.cells, Spares c s rs) : (s.after rs).meaning name = some v := by
  induction rs generalizing s with
  | nil => exact hv
  | cons r rs ih =>
    obtain ⟨ht, hkeeps⟩ := keeps_step hs r
    have hmean := hkeeps.meaning name (hstore r List.mem_cons_self) fun w hw c hc => by
      obtain rfl := Option.some.inj (hv.symm.trans hw)
      exact (hcells c hc).1
    exact ih ht (hmean.trans hv) (fun r' hr' => hstore r' (List.mem_cons_of_mem r hr'))
      fun c hc => (hcells c hc).2

/-! ### All sessions -/

/-- What becomes of the vectors of a session. -/
structure VectorFrame (s : Session) : Prop where
  /-- Whatever is requested, no vector is lost, and none changes its length. -/
  length : ∀ rs, ∀ c < s.vectors.size, c < (s.after rs).vectors.size ∧
    ((s.after rs).vectorAt c).size = (s.vectorAt c).size
  /-- Only four operations overwrite. -/
  unchanged : ∀ r : Request, r.operation ∉ Catalogue.overwriters.map Prod.fst →
    ∀ c < s.vectors.size, (s.step r).2.vectorAt c = s.vectorAt c
  /-- They overwrite their target and no other vector. -/
  target_only : ∀ r, ∀ c < s.vectors.size, s.target r ≠ some c →
    (s.step r).2.vectorAt c = s.vectorAt c
  /-- A request that is refused changes no vector, nor what a name means. -/
  refused : ∀ r f, (s.step r).1.outcome = .error f →
    (s.step r).2.vectors = s.vectors ∧ ∀ name, (s.step r).2.meaning name = s.meaning name
  /-- What an operation on vectors answers shows no vector that is stored. When it is stored itself,
  it is put in a new cell, which no other name shows. -/
  fresh : ∀ (r : Request) a, r.operation ∈ Catalogue.vectors.map Prod.fst →
    r.operation ≠ "flvector_iter" → (s.step r).1.outcome = .ok a →
    a.toValue.cells = [] ∧ ∀ name, r.store = some name →
      (s.step r).2.meaning name = some (a.toValue.placed s.vectors.size) ∧
        ∀ other v, other ≠ name → (s.step r).2.meaning other = some v →
          ∀ c ∈ v.cells, c < s.vectors.size
  /-- A vector stays as it is as long as it is no target. -/
  spared : ∀ rs, ∀ c < s.vectors.size, Spares c s rs → (s.after rs).vectorAt c = s.vectorAt c
  /-- A name keeps its meaning as long as nothing else is stored under it and no vector that it
  shows is a target. -/
  meaning : ∀ rs name v, s.meaning name = some v → (∀ r ∈ rs, r.store ≠ some name) →
    (∀ c ∈ v.cells, Spares c s rs) → (s.after rs).meaning name = some v

/-- **Vectors change only by being overwritten**, in every session. -/
theorem vectors_framed (desk : Desk) (rs : List Request) :
    VectorFrame (after { desk } rs) := by
  have hs := sound_after (sound_start desk) rs
  exact
    { length := fun rs c hc => length_after hs rs hc
      unchanged := fun r hr c hc => (keeps_step hs r).2.vectorAt c hc (by simp [target_eq_none hr])
      target_only := fun r c hc hne => (keeps_step hs r).2.vectorAt c hc hne
      refused := fun r f hf => ⟨(step_error hf).vectors, (step_error hf).meaning⟩
      fresh := fun r a => fresh_step hs
      spared := fun rs c hc h => vectorAt_after hs hc h
      meaning := fun rs name v => meaning_after hs }

/-- Of two vectors one is overwritten, and a copy of the other one is stored. -/
theorem vectors_framed_two :
    let s := after {}
      [{ operation := "flvector_zeros", positional := [.value (.integer 2)], store := some "v" },
       { operation := "flvector", positional := [.value (.double Binary64.one)],
         store := some "w" }]
    let fill : Request :=
      { operation := "flvector_fill",
        positional := [.stored "w", .value (.double (.zero false))] }
    let clone : Request :=
      { operation := "flvector_clone", positional := [.stored "v"], store := some "u" }
    let past : Request :=
      { operation := "flvector_set",
        positional := [.stored "v", .value (.integer 2), .value (.double Binary64.one)] }
    let zeros : FlonumVector := #[.zero false, .zero false]
    s.vectors = #[zeros, #[Binary64.one]] ∧ s.target fill = some 1 ∧ Spares 0 s [fill, clone] ∧
      (s.step fill).2.vectorAt 0 = zeros ∧ (s.after [fill, clone]).vectorAt 0 = zeros ∧
      (s.after [fill, clone]).meaning "v" = some (.vector zeros (some 0)) ∧
      (s.step clone).2.vectorAt 1 = #[Binary64.one] ∧
      (s.step clone).2.meaning "u" = some (.vector zeros (some 2)) ∧
      ((s.after [fill, clone]).vectorAt 1).size = 1 ∧
      (∃ f, (s.step past).1.outcome = .error f) ∧ (s.step past).2.vectors = s.vectors := by
  intro s fill clone past zeros
  have h : VectorFrame s := vectors_framed {} _
  have hvectors : s.vectors = #[zeros, #[Binary64.one]] := by decide +kernel
  have htarget : s.target fill = some 1 := by decide +kernel
  have hsize : s.vectors.size = 2 := by rw [hvectors]; rfl
  have hspares : Spares 0 s [fill, clone] := ⟨by rw [htarget]; decide, by decide +kernel, trivial⟩
  have hzeros : s.vectorAt 0 = zeros := by rw [vectorAt, hvectors]; rfl
  have hone : s.vectorAt 1 = #[Binary64.one] := by rw [vectorAt, hvectors]; rfl
  have hv : s.meaning "v" = some (.vector zeros (some 0)) := rfl
  have hclone : (s.step clone).1.outcome = .ok (.exact (.vector zeros none)) := rfl
  have hpast : (s.step past).1.outcome = .error (.indexOutside "flvector_set" 2 2) := rfl
  obtain ⟨-, hfresh⟩ := h.fresh clone _ (by decide) (by decide) hclone
  refine ⟨hvectors, htarget, hspares, ?_, ?_, ?_, ?_, ?_, ?_, ⟨_, hpast⟩,
    (h.refused past _ hpast).1⟩
  · exact (h.target_only fill 0 (by omega) (by rw [htarget]; decide)).trans hzeros
  · exact (h.spared _ 0 (by omega) hspares).trans hzeros
  · refine h.meaning _ "v" _ hv (by decide) fun c hc => ?_
    obtain rfl := List.mem_singleton.mp hc
    exact hspares
  · exact (h.unchanged clone (by decide) 1 (by omega)).trans hone
  · exact hsize ▸ (hfresh "u" rfl).1
  · rw [(h.length [fill, clone] 1 (by omega)).2, hone]
    rfl

/-- A default that is handed back is the same vector, so it is overwritten under both names. -/
example :
    (after {}
      [{ operation := "flvector_zeros", positional := [.value (.integer 2)], store := some "v" },
       { operation := "parse_int_env", positional := [.value .null, .stored "v"],
         store := some "w" },
       { operation := "flvector_fill",
         positional := [.stored "w", .value (.double Binary64.one)] }]).vectors =
      #[#[Binary64.one, Binary64.one]] := by
  decide +kernel

end Session

end ExactNumerics
