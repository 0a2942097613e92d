import ExactNumerics.Proofs.Document.Json
import ExactNumerics.Proofs.Failure
import ExactNumerics.Settings.File
import Mathlib.Tactic.ByContra

/-!
# Keys that name no field

The fields are looked up in a settings file by their names, so entries with other keys make no
difference to the settings, and none to which fields are refused. But the keys that name no field
are gathered first, for the warning, and they are gathered as texts. One that is no text fails
there, whatever the fields are, although without it the file might have been accepted.

So unknown keys are ignored exactly if all keys are texts (`read_ignores_unknown_iff`). In JSON they
always are. In YAML, keys may be numbers, truth values or nothing at all.

## Main definitions

* `Settings.File.fieldEntries` — the entries whose keys are names of fields

## Main results

* `Settings.File.exists_ofEntries` — with texts as keys, the others are warned about
* `Settings.File.ofEntries_eq_error` — with another key, the entries are refused
* `Settings.File.forall_isText_of_json` — the keys in JSON
* `Settings.File.read_ignores_unknown_iff` — when unknown keys make no difference
* `Settings.File.not_ignored_integer_key` — a key that is a number
-/

namespace ExactNumerics

namespace Settings

/-- Settings are refused for their fields only. -/
theorem Draft.failsBy_check (d : Draft) : FailsBy .validation [] d.check := by
  rw [Draft.check]
  split
  · exact .ok _
  · exact .error (.of_subset rfl (List.Subset.refl []))

theorem failsBy_ofFields (value? : Field → Option Value) :
    FailsBy .validation [] (ofFields value?) :=
  Draft.failsBy_check _

namespace File

variable {limit : DigitLimit} {path text : String} {format : Format} {v : Value}
  {entries : List (Value × Value)}

/-! ### Entries that count -/

/-- The key is the name of a field. -/
def namesField : Value → Bool
  | .text name => Field.names.contains name
  | _ => false

/-- The entries whose keys are names of fields. -/
def fieldEntries (entries : List (Value × Value)) : List (Value × Value) :=
  entries.filter fun e => namesField e.1

theorem contains_names (f : Field) : Field.names.contains f.name = true := by
  cases f <;> decide

theorem isText_of_namesField (h : namesField v = true) : v.IsText := by
  cases v with
  | text s => exact ⟨s, rfl⟩
  | _ => exact absurd h (by simp [namesField])

/-- The keys that count are texts. -/
theorem forall_isText_fieldEntries (entries : List (Value × Value)) :
    ∀ e ∈ fieldEntries entries, e.1.IsText :=
  fun _ he => isText_of_namesField (List.mem_filter.mp he).2

/-- **The fields are read off the entries that count.** -/
theorem ofFields_fieldEntries (entries : List (Value × Value)) :
    (ofFields fun f => Value.entry? f.name (fieldEntries entries)) =
      ofFields fun f => Value.entry? f.name entries :=
  congrArg ofFields (funext fun f => Value.entry?_filter (contains_names f))

/-! ### Unknown keys -/

/-- If all keys are texts, those that name no field are found. -/
theorem exists_unknownKeys (h : ∀ e ∈ entries, e.1.IsText) :
    ∃ unknown, unknownKeys entries = .ok unknown ∧
      ∀ name, name ∈ unknown ↔ name ∉ Field.names ∧ ∃ w, (.text name, w) ∈ entries := by
  induction entries with
  | nil => exact ⟨[], rfl, by simp⟩
  | cons e entries ih =>
    obtain ⟨⟨s, hs⟩, htail⟩ := List.forall_mem_cons.mp h
    obtain ⟨unknown, hunknown, hmem⟩ := ih htail
    obtain ⟨k, w⟩ := e
    obtain rfl : k = .text s := hs
    refine ⟨_, by rw [unknownKeys, hunknown, ok_bind, pure_eq_ok], fun name => ?_⟩
    have hcons : (∃ u, (.text name, u) ∈ (.text s, w) :: entries) ↔
        name = s ∨ ∃ u, (.text name, u) ∈ entries := by
      simp only [List.mem_cons, Prod.mk.injEq, Value.text.injEq, exists_or, exists_and_left,
        exists_eq, and_true]
    rw [hcons]
    split
    · rename_i hnames
      have hs : s ∈ Field.names := List.contains_iff_mem.mp hnames
      rw [hmem]
      refine and_congr_right fun hname => (or_iff_right ?_).symm
      rintro rfl
      exact hname hs
    · rename_i hnames
      have hs : s ∉ Field.names := fun hs => hnames (List.contains_iff_mem.mpr hs)
      rw [List.mem_cons, hmem]
      constructor
      · rintro (rfl | ⟨hname, hu⟩)
        · exact ⟨hs, .inl rfl⟩
        · exact ⟨hname, .inr hu⟩
      · rintro ⟨hname, heq | hu⟩
        · exact .inl heq
        · exact .inr ⟨hname, hu⟩

/-- A key that is no text is not found, but refused. -/
theorem unknownKeys_eq_error (h : ∃ e ∈ entries, ¬ e.1.IsText) :
    unknownKeys entries = .error (.unworded .type) := by
  induction entries with
  | nil => simp at h
  | cons e entries ih =>
    obtain ⟨k, w⟩ := e
    by_cases hk : k.IsText
    · obtain ⟨s, rfl⟩ := hk
      obtain ⟨e, he, hne⟩ := h
      have htail : e ∈ entries := by
        refine (List.mem_cons.mp he).resolve_left ?_
        rintro rfl
        exact hne (Value.isText_text s)
      rw [unknownKeys, ih ⟨e, htail, hne⟩]
      rfl
    · rw [unknownKeys]
      intro s _ heq
      exact hk ⟨s, (Prod.mk.inj heq).1⟩

/-! ### Outcomes -/

/-- With texts as keys, what comes of some entries comes of those that count, and the other keys
are in the warning. -/
theorem exists_ofEntries (path : String) (h : ∀ e ∈ entries, e.1.IsText) :
    ∃ unknown, (∀ name, name ∈ unknown ↔ name ∉ Field.names ∧ ∃ w, (.text name, w) ∈ entries) ∧
      ofEntries path entries =
        (ofFields fun f => Value.entry? f.name entries).map (·, warnings path unknown) := by
  obtain ⟨unknown, hunknown, hmem⟩ := exists_unknownKeys h
  refine ⟨unknown, hmem, ?_⟩
  rw [ofEntries, hunknown, ok_bind]
  cases ofFields fun f => Value.entry? f.name entries <;> rfl

/-- Entries with names of fields as keys give no warning. -/
theorem ofEntries_fieldEntries (path : String) (entries : List (Value × Value)) :
    ofEntries path (fieldEntries entries) =
      (ofFields fun f => Value.entry? f.name entries).map (·, []) := by
  obtain ⟨unknown, hmem, hofEntries⟩ :=
    exists_ofEntries path (forall_isText_fieldEntries entries)
  have hnil : unknown = [] := by
    refine List.eq_nil_iff_forall_not_mem.mpr fun name hname => ?_
    obtain ⟨hunknown, w, hw⟩ := (hmem name).mp hname
    exact hunknown (List.contains_iff_mem.mp (List.mem_filter.mp hw).2)
  rw [hofEntries, ofFields_fieldEntries, hnil]
  rfl

/-- **The settings are those of the entries that count**, if the keys are texts. -/
theorem map_fst_ofEntries (path : String) (h : ∀ e ∈ entries, e.1.IsText) :
    (ofEntries path entries).map Prod.fst = ofFields fun f => Value.entry? f.name entries := by
  obtain ⟨unknown, -, hofEntries⟩ := exists_ofEntries path h
  rw [hofEntries]
  cases ofFields fun f => Value.entry? f.name entries <;> rfl

theorem ofEntries_eq_error (path : String) (h : ∃ e ∈ entries, ¬ e.1.IsText) :
    ofEntries path entries = .error (.unworded .type) := by
  rw [ofEntries, unknownKeys_eq_error h]
  rfl

/-- The entries of a file of which text and mapping are known. -/
theorem read_eq (hformat : Format.ofPath? path = some format)
    (hparse : format.parse limit text = .ok v) (hentries : entriesOf path v = .ok entries) :
    read limit path (some text) = ofEntries path entries := by
  unfold read
  rw [hformat]
  simp only [hparse, hentries, ok_bind]

/-- All keys in JSON are texts. -/
theorem forall_isText_of_json (hparse : Format.json.parse limit text = .ok v)
    (hentries : entriesOf path v = .ok entries) : ∀ e ∈ entries, e.1.IsText := by
  have hread : Json.IsRead limit v := Json.isRead_of_read hparse
  rw [entriesOf.eq_def] at hentries
  split at hentries
  · obtain rfl := Except.ok.inj hentries
    simp
  · rename_i all
    obtain rfl := Except.ok.inj hentries
    rw [section?]
    split
    · rename_i inner hinner
      have hsection : Json.IsRead limit (.mapping inner) :=
        (hread.forall_mem _ (Value.mem_of_entry?_eq_some hinner)).2
      exact fun e he => (hsection.forall_mem e he).1
    · exact fun e he => (hread.forall_mem e he).1
  · simp at hentries

/-- **When unknown keys make no difference.** Reading the file has the same outcome as the entries
of its mapping with names of fields as keys, be it settings or the names of refused fields, exactly
if all keys are texts. The other keys are then named in the warning and no more. A key that is no
text makes the file fail. In JSON there are none. -/
theorem read_ignores_unknown_iff (hformat : Format.ofPath? path = some format)
    (hparse : format.parse limit text = .ok v) (hentries : entriesOf path v = .ok entries) :
    ((read limit path (some text)).map Prod.fst =
        (ofEntries path (fieldEntries entries)).map Prod.fst ↔ ∀ e ∈ entries, e.1.IsText) ∧
      ((∀ e ∈ entries, e.1.IsText) → ∃ unknown,
        (∀ name, name ∈ unknown ↔ name ∉ Field.names ∧ ∃ w, (.text name, w) ∈ entries) ∧
        read limit path (some text) =
          (ofEntries path (fieldEntries entries)).map fun r => (r.1, warnings path unknown)) ∧
      ((∃ e ∈ entries, ¬ e.1.IsText) → read limit path (some text) = .error (.unworded .type)) ∧
      (format = .json → ∀ e ∈ entries, e.1.IsText) := by
  have hcounted : (ofEntries path (fieldEntries entries)).map Prod.fst =
      ofFields fun f => Value.entry? f.name entries := by
    rw [map_fst_ofEntries path (forall_isText_fieldEntries entries), ofFields_fieldEntries]
  rw [read_eq hformat hparse hentries, hcounted]
  refine ⟨⟨fun h => ?_, map_fst_ofEntries path⟩, fun h => ?_, ofEntries_eq_error path, ?_⟩
  · by_contra hkeys
    rw [ofEntries_eq_error path (by simpa using hkeys)] at h
    exact absurd (failsBy_ofFields _ _ h.symm).kind_eq (by decide)
  · obtain ⟨unknown, hmem, hofEntries⟩ := exists_ofEntries path h
    refine ⟨unknown, hmem, ?_⟩
    rw [hofEntries, ofEntries_fieldEntries]
    cases ofFields fun f => Value.entry? f.name entries <;> rfl
  · rintro rfl
    exact forall_isText_of_json hparse hentries

/-- A section with a text that names no field. -/
theorem read_ignores_unknown_iff_section :
    Format.ofPath? "a.yml" = some .yaml ∧
      Format.yaml.parse none "numcore: {color: red, pollard_max_retries: 5}" =
        .ok (.mapping [(.text "numcore",
          .mapping [(.text "color", .text "red"), (.text "pollard_max_retries", .integer 5)])]) ∧
      (read none "a.yml" (some "numcore: {color: red, pollard_max_retries: 5}")).map Prod.fst =
        (ofEntries "a.yml" [(.text "pollard_max_retries", .integer 5)]).map Prod.fst := by
  have hformat : Format.ofPath? "a.yml" = some .yaml := by decide +kernel
  have hparse : Format.yaml.parse none "numcore: {color: red, pollard_max_retries: 5}" =
      .ok (.mapping [(.text "numcore",
        .mapping [(.text "color", .text "red"), (.text "pollard_max_retries", .integer 5)])]) :=
    Value.eq_ok_of_same (by decide +kernel)
  have hentries : entriesOf "a.yml" (.mapping [(.text "numcore",
      .mapping [(.text "color", .text "red"), (.text "pollard_max_retries", .integer 5)])]) =
      .ok [(.text "color", .text "red"), (.text "pollard_max_retries", .integer 5)] := rfl
  have hkeys := (read_ignores_unknown_iff hformat hparse hentries).1.mpr (by simp [Value.IsText])
  exact ⟨hformat, hparse, hkeys⟩

/-- **A key that is a number is not ignored.** The mapping of one to two is refused, although there
is nothing wrong with a mapping without entries. -/
theorem not_ignored_integer_key :
    Format.yaml.parse none "1: 2\n" = .ok (.mapping [(.integer 1, .integer 2)]) ∧
      read none "n.yml" (some "1: 2\n") = .error (.unworded .type) ∧
      fieldEntries [(.integer 1, .integer 2)] = [] ∧ ofEntries "n.yml" [] = .ok (default, []) ∧
      (read none "n.yml" (some "1: 2\n")).map Prod.fst ≠
        (ofEntries "n.yml" (fieldEntries [(.integer 1, .integer 2)])).map Prod.fst := by
  have hparse : Format.yaml.parse none "1: 2\n" = .ok (.mapping [(.integer 1, .integer 2)]) :=
    Value.eq_ok_of_same (by decide +kernel)
  have hformat : Format.ofPath? "n.yml" = some .yaml := by decide +kernel
  have hread : read none "n.yml" (some "1: 2\n") = .error (.unworded .type) := by
    rw [read_eq hformat hparse rfl]
    rfl
  have hempty : ofEntries "n.yml" [] = .ok (default, []) := rfl
  refine ⟨hparse, hread, rfl, hempty, ?_⟩
  rw [hread]
  exact nofun

end File

end Settings

end ExactNumerics
