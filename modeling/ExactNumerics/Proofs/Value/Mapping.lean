import ExactNumerics.Failure
import ExactNumerics.Value.Mapping

/-!
# Entries of mappings

A mapping may have keys of any kind, but values are looked up by texts only. So a lookup does not
see the entries whose keys are no texts, and it is the same after entries with other keys are
removed.

Values are equal for callers if they are equal as numbers, so the test that callers use does not
tell one from a truth value. `Value.same` tells apart all that it compares, and so finds out which
mapping was read.

## Main definitions

* `Value.IsText` — the texts among the values
* `Value.same` — a test for mappings of texts and integers

## Main results

* `Value.forall_mem_putEntry` — what holds of all keys and of all values, after one more entry
* `Value.mem_of_entry?_eq_some` — what is looked up is there
* `Value.entry?_filter` — a lookup after entries with other keys are removed
* `Value.eq_of_same` — what passes the test is equal
-/

namespace ExactNumerics

namespace Value

variable {key v : Value} {entries : List (Value × Value)} {name : String}

/-- The value is a text. -/
def IsText (v : Value) : Prop := ∃ s, v = .text s

theorem isText_text (s : String) : (text s).IsText := ⟨s, rfl⟩

/-- What holds of all keys and what holds of all values, after one more entry. -/
theorem forall_mem_putEntry {P Q : Value → Prop} (hkey : P key) (hv : Q v)
    (h : ∀ e ∈ entries, P e.1 ∧ Q e.2) : ∀ e ∈ putEntry key v entries, P e.1 ∧ Q e.2 := by
  fun_induction putEntry key v entries with
  | case1 => simpa using ⟨hkey, hv⟩
  | case2 k w entries _ =>
    -- the key that was there first stays
    obtain ⟨hk, htail⟩ := List.forall_mem_cons.mp h
    exact List.forall_mem_cons.mpr ⟨⟨hk.1, hv⟩, htail⟩
  | case3 k w entries _ ih =>
    obtain ⟨hk, htail⟩ := List.forall_mem_cons.mp h
    exact List.forall_mem_cons.mpr ⟨hk, ih htail⟩

/-- The value of a text key stands in an entry with this key. -/
theorem mem_of_entry?_eq_some (h : entry? name entries = some v) : (text name, v) ∈ entries := by
  fun_induction entry? name entries with
  | case1 => simp at h
  | case2 w entries =>
    obtain rfl := Option.some.inj h
    exact List.mem_cons_self
  | case3 k w entries _ ih => exact List.mem_cons_of_mem _ (ih h)
  | case4 e entries _ ih => exact List.mem_cons_of_mem _ (ih h)

/-- **A lookup does not see the entries with other keys.** -/
theorem entry?_filter {p : Value → Bool} (hname : p (text name)) :
    entry? name (entries.filter fun e => p e.1) = entry? name entries := by
  fun_induction entry? name entries with
  | case1 => rfl
  | case2 w entries => rw [List.filter_cons, if_pos hname, entry?, if_pos rfl]
  | case3 k w entries hk ih =>
    rw [List.filter_cons]
    split
    · rw [← ih, entry?, if_neg hk]
    · exact ih
  | case4 e entries hk ih =>
    rw [List.filter_cons]
    split
    · rw [← ih, entry?]
      exact hk
    · exact ih

/-! ### The same mapping -/

mutual

/-- Whether two values are the same integer, the same text or mappings with the same entries. -/
def same : Value → Value → Bool
  | integer i, integer j => i == j
  | text s, text t => s == t
  | mapping es, mapping fs => sameEntries es fs
  | _, _ => false

/-- Whether two mappings have the same entries in the same order. -/
def sameEntries : List (Value × Value) → List (Value × Value) → Bool
  | [], [] => true
  | (k, v) :: es, (l, w) :: fs => same k l && same v w && sameEntries es fs
  | _, _ => false

end

mutual

/-- **What passes the test is equal.** -/
theorem eq_of_same : ∀ {v w : Value}, same v w = true → v = w := by
  intro v w h
  cases v with
  | integer i => cases w <;> simp_all [same]
  | text s => cases w <;> simp_all [same]
  | mapping es =>
    cases w with
    | mapping fs => exact congrArg mapping (eq_of_sameEntries h)
    | _ => simp [same] at h
  | _ => cases w <;> simp [same] at h

theorem eq_of_sameEntries : ∀ {es fs : List (Value × Value)}, sameEntries es fs = true → es = fs
  | [], fs, h => by cases fs <;> simp_all [sameEntries]
  | (k, v) :: es, [], h => by simp [sameEntries] at h
  | (k, v) :: es, (l, w) :: fs, h => by
    simp only [sameEntries, Bool.and_eq_true] at h
    obtain ⟨⟨hk, hv⟩, hes⟩ := h
    rw [eq_of_same hk, eq_of_same hv, eq_of_sameEntries hes]

end

/-- A computation with an answer that passes the test. -/
theorem eq_ok_of_same {x : Except Failure Value} (h : x.toOption.any (same v) = true) :
    x = .ok v := by
  cases x with
  | error f => simp [Except.toOption] at h
  | ok w =>
    have hw : same v w = true := by simpa [Except.toOption] using h
    rw [eq_of_same hw]

end Value

end ExactNumerics
