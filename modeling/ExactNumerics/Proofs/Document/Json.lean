import ExactNumerics.Document.Json
import ExactNumerics.Proofs.Failure
import ExactNumerics.Proofs.Value.Mapping
import Mathlib.Data.Nat.Notation

/-!
# Keys in JSON

Reading a mapping puts its entries one after the other among those before, each under the string in
front of its colon. So the keys of a mapping are texts, and its values were read themselves. This is
shown along the entries of one mapping. For the mappings inside it there is nothing to be done
again, because a value that was read is all that is asked of them.

## Main definitions

* `Json.IsRead` — the values that are read

## Main results

* `Json.IsRead.forall_mem` — the keys of a mapping are texts
-/

namespace ExactNumerics

namespace Json

variable {limit : DigitLimit} {v : Value} {before es : List (Value × Value)} {cs rest : List Char}
  {fuel : ℕ}

/-- The value is read at the start of some text. -/
def IsRead (limit : DigitLimit) (v : Value) : Prop :=
  ∃ fuel cs rest, value limit fuel cs = .ok (v, rest)

theorem isRead_of_read (h : read limit cs = .ok v) : IsRead limit v := by
  obtain ⟨⟨w, rest⟩, hvalue, h⟩ := bind_eq_ok.mp h
  simp only at h
  split at h
  · obtain rfl := Except.ok.inj h
    exact ⟨_, _, _, hvalue⟩
  · exact absurd h (by simp [malformed])

/-! ### Mappings -/

/-- Each entry is put under a text. -/
theorem forall_mem_entries (hbefore : ∀ e ∈ before, e.1.IsText ∧ IsRead limit e.2)
    (h : entries limit fuel before cs = .ok (es, rest)) :
    ∀ e ∈ es, e.1.IsText ∧ IsRead limit e.2 := by
  induction fuel generalizing before cs with
  | zero => exact absurd h (by simp [entries, malformed])
  | succ fuel ih =>
    rw [entries] at h
    obtain ⟨⟨key, afterKey⟩, -, h⟩ := bind_eq_ok.mp h
    simp only at h
    split at h
    · obtain ⟨⟨v, afterValue⟩, hv, h⟩ := bind_eq_ok.mp h
      have hput := Value.forall_mem_putEntry (Value.isText_text key) ⟨fuel, _, _, hv⟩ hbefore
      simp only at h
      split at h
      · exact ih hput h
      · obtain ⟨rfl, -⟩ := Prod.mk.inj (Except.ok.inj h)
        exact hput
      · exact absurd h (by simp [malformed])
    · exact absurd h (by simp [malformed])

theorem ne_mapping_of_namedValue? (h : namedValue? cs = some (v, rest)) : v ≠ .mapping es := by
  rw [namedValue?] at h
  obtain ⟨⟨word, w⟩, hmem, hword⟩ := List.exists_of_findSome?_eq_some h
  obtain ⟨_, -, heq⟩ := Option.map_eq_some_iff.mp hword
  obtain ⟨rfl, -⟩ := Prod.mk.inj heq
  rintro rfl
  simp at hmem

theorem ne_mapping_of_number (h : number limit cs = .ok (v, rest)) : v ≠ .mapping es := by
  obtain ⟨_, -, h⟩ := bind_eq_ok.mp h
  simp only at h
  split at h
  · split at h
    · obtain ⟨rfl, -⟩ := Prod.mk.inj (Except.ok.inj h)
      exact nofun
    · exact absurd h (by simp)
  · obtain ⟨rfl, -⟩ := Prod.mk.inj (Except.ok.inj h)
    exact nofun

/-- **The keys of a mapping are texts**, and its values are read. -/
theorem IsRead.forall_mem (h : IsRead limit (.mapping es)) :
    ∀ e ∈ es, e.1.IsText ∧ IsRead limit e.2 := by
  obtain ⟨fuel, cs, rest, h⟩ := h
  cases fuel with
  | zero => exact absurd h (by simp [value, malformed])
  | succ fuel =>
    rw [value.eq_def] at h
    simp only at h
    split at h
    · split at h
      · simp at h
      · obtain ⟨_, -, h⟩ := bind_eq_ok.mp h
        simp at h
    · -- only what starts with a brace is a mapping
      split at h
      · obtain rfl := Value.mapping.inj (Prod.mk.inj (Except.ok.inj h)).1
        exact fun _ he => absurd he List.not_mem_nil
      · obtain ⟨⟨inner, _⟩, hinner, h⟩ := bind_eq_ok.mp h
        obtain rfl := Value.mapping.inj (Prod.mk.inj (Except.ok.inj h)).1
        exact forall_mem_entries (fun _ he => absurd he List.not_mem_nil) hinner
    · split at h
      · simp at h
      · split at h
        · rename_i hnamed
          obtain rfl := Except.ok.inj h
          exact absurd rfl (ne_mapping_of_namedValue? hnamed)
        · exact absurd rfl (ne_mapping_of_number h)

end Json

end ExactNumerics
