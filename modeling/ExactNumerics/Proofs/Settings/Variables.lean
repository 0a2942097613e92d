import ExactNumerics.Catalogue.Configuration
import ExactNumerics.Proofs.Settings.Environment
import ExactNumerics.Proofs.Settings.Tolerance
import Mathlib.Data.List.TakeWhile
import Mathlib.Data.Set.Basic
import Mathlib.Order.Bounds.Defs

/-!
# What the variables ask for

The numbers in the variables are raised to bounds that are given where the variables are read, and
the settings have bounds of their own. The settings from the environment exist because each bound of
the first kind is the least number that the second kind admits (`IntegerFollows.isLeast`), and
because the defaults, for which a variable without a number leaves room, are settings already.

The settings with the numbers of a draft have these numbers and no others (`Draft.check_eq_ok_iff`),
so nothing is lost between a variable and its field. As the number that a variable asks for depends
on the text of this variable alone, so does the field.

## Main definitions

* `Settings.draft` — the numbers of some settings
* `Settings.Field.variable`, `Settings.fieldValue` — the variable of a field, and its value
* `Settings.IntegerFollows`, `Settings.ToleranceFollows` — a field is what its variable asks for
* `Settings.Follows` — all fields are

## Main results

* `Settings.Draft.check_eq_ok_iff` — the drafts that pass the check
* `Settings.Follows.fieldValue_eq` — each field depends on its own variable only
* `Settings.ofEnvironment_follows` — the settings that the variables ask for
-/

namespace ExactNumerics

/-! ### Blank texts -/

theorem Text.trim_eq_nil {blank : Char → Bool} {cs : List Char} (h : ∀ c ∈ cs, blank c) :
    Text.trim blank cs = [] := by
  rw [Text.trim, List.dropWhile_eq_nil_iff.mpr h]
  rfl

/-- A blank text is no integer. -/
theorem readInteger?_of_blank (limit : DigitLimit) {text : String}
    (h : ∀ c ∈ text.toList, Text.isBlank c) : readInteger? limit text = none := by
  rw [readInteger?, Text.trim_eq_nil h]
  rfl

/-- A blank text is no double. -/
theorem readDouble?_of_blank {text : String} (h : ∀ c ∈ text.toList, Text.isBlank c) :
    readDouble? text = none := by
  rw [readDouble?, Text.trim_eq_nil h]
  decide

namespace Settings

variable {limit : DigitLimit} {get? : String → Option String} {raw : Option String}
  {s s' : Settings}

/-! ### The numbers of some settings -/

/-- The numbers of some settings, as a draft. -/
def draft (s : Settings) : Draft where
  smallPrimeLimit := some s.smallPrimeLimit
  tolerance := some s.tolerance
  factorialTableSize := some s.factorialTableSize
  simpleFactorialCutoff := some s.simpleFactorialCutoff
  trialDivisionLimit := some s.trialDivisionLimit
  splitAttempts := some s.splitAttempts

theorem atLeast?_eq_some_iff {bound : ℕ} {i : Option ℤ} {n : { n : ℕ // bound ≤ n }} :
    atLeast? bound i = some n ↔ i = some (n.val : ℤ) := by
  cases i with
  | none => simp [atLeast?]
  | some i =>
    obtain ⟨n, hn⟩ := n
    rw [atLeast?]
    split
    · simp only [Option.some.injEq, Subtype.mk.injEq]
      omega
    · simp only [reduceCtorEq, Option.some.injEq, false_iff]
      omega

theorem admitted?_eq_some_iff {t : Option Binary64}
    {u : { t : Binary64 // admitsTolerance t = true }} :
    admitted? t = some u ↔ t = some u.val := by
  cases t with
  | none => simp [admitted?]
  | some t =>
    obtain ⟨u, hu⟩ := u
    rw [admitted?]
    split
    · simp only [Option.some.injEq, Subtype.mk.injEq]
    · rename_i ht
      simp only [reduceCtorEq, Option.some.injEq, false_iff]
      rintro rfl
      exact ht hu

/-- **The drafts that pass the check** are the numbers of the settings that come of it. -/
theorem Draft.check_eq_ok_iff {d : Draft} : d.check = .ok s ↔ d = s.draft := by
  constructor
  · intro h
    rw [Draft.check] at h
    split at h
    · rename_i limit t size cutoff division attempts hlimit ht hsize hcutoff hdivision hattempts
      obtain rfl := Except.ok.inj h
      obtain ⟨_, _, _, _, _, _⟩ := d
      rw [atLeast?_eq_some_iff] at hlimit hsize hcutoff hdivision hattempts
      rw [admitted?_eq_some_iff] at ht
      simp only at hlimit ht hsize hcutoff hdivision hattempts
      rw [draft, hlimit, ht, hsize, hcutoff, hdivision, hattempts]
    · simp at h
  · rintro rfl
    have hlimit := (atLeast?_eq_some_iff (n := ⟨_, s.two_le_smallPrimeLimit⟩)).mpr rfl
    have ht := (admitted?_eq_some_iff (u := ⟨_, s.tolerance_admitted⟩)).mpr rfl
    have hsize := (atLeast?_eq_some_iff (n := ⟨_, s.factorialTableSize_pos⟩)).mpr rfl
    have hcutoff := (atLeast?_eq_some_iff (n := ⟨_, s.simpleFactorialCutoff.zero_le⟩)).mpr rfl
    have hdivision := (atLeast?_eq_some_iff (n := ⟨_, s.trialDivisionLimit.zero_le⟩)).mpr rfl
    have hattempts := (atLeast?_eq_some_iff (n := ⟨_, s.splitAttempts_pos⟩)).mpr rfl
    rw [Draft.check]
    simp only [draft]
    rw [hlimit, ht, hsize, hcutoff, hdivision, hattempts]

/-! ### Fields and their variables -/

/-- The variable of a field. -/
def Field.variable : Field → String
  | smallPrimeLimit => "NUMCORE_SMALL_PRIME_LIMIT"
  | tolerance => "NUMCORE_PSEUDOPRIME_TOLERANCE"
  | factorialTableSize => "NUMCORE_FACTORIAL_TABLE_SIZE"
  | simpleFactorialCutoff => "NUMCORE_SIMPLE_FACTORIAL_CUTOFF"
  | trialDivisionLimit => "NUMCORE_FACTORIZE_THRESHOLD"
  | splitAttempts => "NUMCORE_POLLARD_MAX_RETRIES"

/-- The value of a field of some settings. -/
def fieldValue (s : Settings) : Field → Value
  | .smallPrimeLimit => .integer s.smallPrimeLimit
  | .tolerance => .double s.tolerance
  | .factorialTableSize => .integer s.factorialTableSize
  | .simpleFactorialCutoff => .integer s.simpleFactorialCutoff
  | .trialDivisionLimit => .integer s.trialDivisionLimit
  | .splitAttempts => .integer s.splitAttempts

/-- An integer field with a lower bound is what its variable asks for. -/
structure IntegerFollows (limit : DigitLimit) (field : Settings → ℕ) (bound : ℕ)
    (raw : Option String) (s : Settings) : Prop where
  /-- The bound is the least value that the field has in any settings. -/
  isLeast : IsLeast (Set.range field) bound
  /-- An unset variable leaves the default. -/
  unset : raw = none → field s = field default
  /-- So does a blank one, -/
  blank : ∀ text, raw = some text → (∀ c ∈ text.toList, Text.isBlank c) → field s = field default
  /-- and one that is not an integer with at most as many digits as are admitted. -/
  unread : ∀ text, raw = some text → readInteger? limit text = none → field s = field default
  /-- An integer counts unless the bound is larger. -/
  read : ∀ text i, raw = some text → readInteger? limit text = some i → (field s : ℤ) = max i bound

/-- The tolerance is what its variable asks for. -/
structure ToleranceFollows (raw : Option String) (s : Settings) : Prop where
  /-- An unset variable leaves the default. -/
  unset : raw = none → s.tolerance = (default : Settings).tolerance
  /-- So does a blank one, -/
  blank : ∀ text, raw = some text → (∀ c ∈ text.toList, Text.isBlank c) →
    s.tolerance = (default : Settings).tolerance
  /-- one that is not a double, -/
  unread : ∀ text, raw = some text → readDouble? text = none →
    s.tolerance = (default : Settings).tolerance
  /-- one with a NaN or an infinity, -/
  notFinite : ∀ text x, raw = some text → readDouble? text = some x → ¬ x.isFinite →
    s.tolerance = (default : Settings).tolerance
  /-- and one with a number that is not between zero and one. -/
  outside : ∀ text x, raw = some text → readDouble? text = some x → x.toRat ≤ 0 ∨ 1 ≤ x.toRat →
    s.tolerance = (default : Settings).tolerance
  /-- A number between them counts. -/
  inside : ∀ text x, raw = some text → readDouble? text = some x → x.isFinite → 0 < x.toRat →
    x.toRat < 1 → s.tolerance = x

/-- Each field is what its variable asks for. -/
structure Follows (limit : DigitLimit) (get? : String → Option String) (s : Settings) : Prop where
  /-- The size of the default prime table is at least two. -/
  smallPrimeLimit :
    IntegerFollows limit Settings.smallPrimeLimit 2 (get? Field.smallPrimeLimit.variable) s
  /-- The tolerance is between zero and one. -/
  tolerance : ToleranceFollows (get? Field.tolerance.variable) s
  /-- One factorial is tabulated at least. -/
  factorialTableSize :
    IntegerFollows limit Settings.factorialTableSize 1 (get? Field.factorialTableSize.variable) s
  /-- The bound of accumulated factorials is not negative. -/
  simpleFactorialCutoff :
    IntegerFollows limit Settings.simpleFactorialCutoff 0
      (get? Field.simpleFactorialCutoff.variable) s
  /-- The bound of trial division is not negative. -/
  trialDivisionLimit :
    IntegerFollows limit Settings.trialDivisionLimit 0 (get? Field.trialDivisionLimit.variable) s
  /-- Splitting is tried once at least. -/
  splitAttempts :
    IntegerFollows limit Settings.splitAttempts 1 (get? Field.splitAttempts.variable) s

/-! ### One field at a time -/

variable {field : Settings → ℕ} {bound : ℕ}

/-- An integer field that is what is read in the variable, or else the default. -/
theorem IntegerFollows.of_getD (hleast : IsLeast (Set.range field) bound)
    (h : (boundedInteger? limit raw bound).getD (field default) = (field s : ℤ)) :
    IntegerFollows limit field bound raw s := by
  have hunread (text : String) (hraw : raw = some text)
      (hread : readInteger? limit text = none) : field s = field default := by
    rw [boundedInteger?, hraw, Option.bind_some, hread] at h
    exact (Int.ofNat.inj h).symm
  refine ⟨hleast, ?_, ?_, hunread, ?_⟩
  · rintro rfl
    exact (Int.ofNat.inj h).symm
  · exact fun text hraw hblank => hunread text hraw (readInteger?_of_blank limit hblank)
  · rintro text i rfl hread
    rw [boundedInteger?, Option.bind_some, hread] at h
    rw [← h]
    exact max_comm _ _

/-- A double in a variable counts if it is an admitted tolerance. -/
theorem openInterval?_of_read {text : String} {x : Binary64} (hread : readDouble? text = some x) :
    openInterval? (some text) (Binary64.zero false) Binary64.one =
      if admitsTolerance x = true then some x else none := by
  rw [openInterval?, Option.bind_some, hread]
  rfl

/-- A tolerance that is what is read in the variable, or else the default. -/
theorem ToleranceFollows.of_getD
    (h : (openInterval? raw (Binary64.zero false) Binary64.one).getD
      (default : Settings).tolerance = s.tolerance) :
    ToleranceFollows raw s := by
  have hunread (text : String) (hraw : raw = some text) (hread : readDouble? text = none) :
      s.tolerance = (default : Settings).tolerance := by
    rw [openInterval?, hraw, Option.bind_some, hread] at h
    exact h.symm
  have hrefused (text : String) (x : Binary64) (hraw : raw = some text)
      (hread : readDouble? text = some x) (hx : ¬ (x.isFinite ∧ 0 < x.toRat ∧ x.toRat < 1)) :
      s.tolerance = (default : Settings).tolerance := by
    rw [hraw, openInterval?_of_read hread, if_neg (mt admitsTolerance_iff.mp hx)] at h
    exact h.symm
  refine ⟨?_, ?_, hunread, ?_, ?_, ?_⟩
  · rintro rfl
    exact h.symm
  · exact fun text hraw hblank => hunread text hraw (readDouble?_of_blank hblank)
  · exact fun text x hraw hread hx => hrefused text x hraw hread fun hin => hx hin.1
  · refine fun text x hraw hread hx => hrefused text x hraw hread fun hin => ?_
    exact hx.elim (not_le.mpr hin.2.1) (not_le.mpr hin.2.2)
  · rintro text x rfl hread hfin hpos hlt
    rw [openInterval?_of_read hread, if_pos (admitsTolerance_iff.mpr ⟨hfin, hpos, hlt⟩)] at h
    exact h.symm

/-- A variable asks for one number only. -/
theorem IntegerFollows.unique (h : IntegerFollows limit field bound raw s)
    (h' : IntegerFollows limit field bound raw s') : field s = field s' := by
  cases raw with
  | none => rw [h.unset rfl, h'.unset rfl]
  | some text =>
    cases hread : readInteger? limit text with
    | none => rw [h.unread text rfl hread, h'.unread text rfl hread]
    | some i =>
      have hi := h.read text i rfl hread
      have hi' := h'.read text i rfl hread
      omega

/-- Variables with the same text ask for the same value of the field. -/
theorem IntegerFollows.integer_eq {raw' : Option String}
    (h : IntegerFollows limit field bound raw s) (h' : IntegerFollows limit field bound raw' s')
    (hraw : raw = raw') : Value.integer (field s) = .integer (field s') := by
  subst hraw
  rw [h.unique h']

/-- A variable asks for one tolerance only. -/
theorem ToleranceFollows.unique (h : ToleranceFollows raw s) (h' : ToleranceFollows raw s') :
    s.tolerance = s'.tolerance := by
  cases raw with
  | none => rw [h.unset rfl, h'.unset rfl]
  | some text =>
    cases hread : readDouble? text with
    | none => rw [h.unread text rfl hread, h'.unread text rfl hread]
    | some x =>
      by_cases hfin : x.isFinite
      · by_cases hout : x.toRat ≤ 0 ∨ 1 ≤ x.toRat
        · rw [h.outside text x rfl hread hout, h'.outside text x rfl hread hout]
        · rw [not_or, not_le, not_le] at hout
          rw [h.inside text x rfl hread hfin hout.1 hout.2,
            h'.inside text x rfl hread hfin hout.1 hout.2]
      · rw [h.notFinite text x rfl hread hfin, h'.notFinite text x rfl hread hfin]

/-! ### All fields -/

/-- The settings with the numbers that the variables ask for. -/
theorem Follows.of_draft (h : draftOfEnvironment limit get? = s.draft) : Follows limit get? s where
  smallPrimeLimit := by
    refine .of_getD ⟨⟨{ (default : Settings) with
      smallPrimeLimit := 2, two_le_smallPrimeLimit := le_rfl }, rfl⟩, ?_⟩ ?_
    · rintro _ ⟨s, rfl⟩
      exact s.two_le_smallPrimeLimit
    · exact Option.some.inj (congrArg Draft.smallPrimeLimit h)
  tolerance := .of_getD (Option.some.inj (congrArg Draft.tolerance h))
  factorialTableSize := by
    refine .of_getD ⟨⟨{ (default : Settings) with
      factorialTableSize := 1, factorialTableSize_pos := Nat.one_pos }, rfl⟩, ?_⟩ ?_
    · rintro _ ⟨s, rfl⟩
      exact s.factorialTableSize_pos
    · exact Option.some.inj (congrArg Draft.factorialTableSize h)
  simpleFactorialCutoff := by
    refine .of_getD ⟨⟨{ (default : Settings) with simpleFactorialCutoff := 0 }, rfl⟩, ?_⟩ ?_
    · exact fun n _ => n.zero_le
    · exact Option.some.inj (congrArg Draft.simpleFactorialCutoff h)
  trialDivisionLimit := by
    refine .of_getD ⟨⟨{ (default : Settings) with trialDivisionLimit := 0 }, rfl⟩, ?_⟩ ?_
    · exact fun n _ => n.zero_le
    · exact Option.some.inj (congrArg Draft.trialDivisionLimit h)
  splitAttempts := by
    refine .of_getD ⟨⟨{ (default : Settings) with
      splitAttempts := 1, splitAttempts_pos := Nat.one_pos }, rfl⟩, ?_⟩ ?_
    · rintro _ ⟨s, rfl⟩
      exact s.splitAttempts_pos
    · exact Option.some.inj (congrArg Draft.splitAttempts h)

theorem follows_of_ofEnvironment (h : ofEnvironment limit get? = .ok s) : Follows limit get? s :=
  .of_draft (Draft.check_eq_ok_iff.mp h)

/-- **Each field depends on its own variable only.** -/
theorem Follows.fieldValue_eq {get?' : String → Option String} (h : Follows limit get? s)
    (h' : Follows limit get?' s') {f : Field} (hvariable : get? f.variable = get?' f.variable) :
    s.fieldValue f = s'.fieldValue f := by
  cases f with
  | smallPrimeLimit => exact h.smallPrimeLimit.integer_eq h'.smallPrimeLimit hvariable
  | tolerance => exact congrArg Value.double (h.tolerance.unique (hvariable ▸ h'.tolerance))
  | factorialTableSize => exact h.factorialTableSize.integer_eq h'.factorialTableSize hvariable
  | simpleFactorialCutoff =>
    exact h.simpleFactorialCutoff.integer_eq h'.simpleFactorialCutoff hvariable
  | trialDivisionLimit => exact h.trialDivisionLimit.integer_eq h'.trialDivisionLimit hvariable
  | splitAttempts => exact h.splitAttempts.integer_eq h'.splitAttempts hvariable

/-- Reading the settings from the environment changes nothing on the desk. -/
theorem environmentSettings_run {d : Desk}
    (h : ofEnvironment d.digits d.environment.get? = .ok s) :
    Catalogue.environmentSettings.run d = (.ok (.settings s), d) := by
  change (liftM (ofEnvironment d.digits d.environment.get?) >>= fun s => pure (.settings s) :
    Errand Value) d = _
  rw [h]
  rfl

/-- **Whatever the variables say, there are settings that they ask for.** Each field is its default
if its variable is unset, blank or not a number, and else the number in it: an integer raised to the
least value of the field, or a double that lies strictly between zero and one. An integer with more
digits than are admitted is not a number. Other variables make no difference to it. The operation
answers with these settings and changes nothing. -/
theorem ofEnvironment_follows (limit : DigitLimit) (get? : String → Option String) :
    ∃ s, ofEnvironment limit get? = .ok s ∧ Follows limit get? s ∧
      (∀ get?' s', ofEnvironment limit get?' = .ok s' →
        ∀ f : Field, get? f.variable = get?' f.variable → s.fieldValue f = s'.fieldValue f) ∧
      ∀ d : Desk, d.environment.get? = get? → d.digits = limit →
        Catalogue.environmentSettings.run d = (.ok (.settings s), d) := by
  obtain ⟨s, hs⟩ := exists_ofEnvironment limit get?
  have hfollows := follows_of_ofEnvironment hs
  refine ⟨s, hs, hfollows, fun get?' s' hs' f hvariable => ?_, ?_⟩
  · exact hfollows.fieldValue_eq (follows_of_ofEnvironment hs') hvariable
  · rintro d rfl rfl
    exact environmentSettings_run hs

/-- A number below its bound is raised, and a NaN, a blank text and a word leave the defaults. -/
theorem ofEnvironment_follows_stray_texts :
    ∃ s, ofEnvironment DigitLimit.usual (Environment.get?
        [("NUMCORE_SMALL_PRIME_LIMIT", "-7"), ("NUMCORE_PSEUDOPRIME_TOLERANCE", "nan"),
         ("NUMCORE_FACTORIAL_TABLE_SIZE", " \t"), ("NUMCORE_SIMPLE_FACTORIAL_CUTOFF", "ten"),
         ("NUMCORE_FACTORIZE_THRESHOLD", " 1_000 ")]) = .ok s ∧
      s.smallPrimeLimit = 2 ∧ s.tolerance = defaultTolerance ∧ s.factorialTableSize = 171 ∧
      s.simpleFactorialCutoff = 244 ∧ s.trialDivisionLimit = 1000 ∧ s.splitAttempts = 64 := by
  obtain ⟨s, hs, h, -⟩ := ofEnvironment_follows DigitLimit.usual (Environment.get?
    [("NUMCORE_SMALL_PRIME_LIMIT", "-7"), ("NUMCORE_PSEUDOPRIME_TOLERANCE", "nan"),
     ("NUMCORE_FACTORIAL_TABLE_SIZE", " \t"), ("NUMCORE_SIMPLE_FACTORIAL_CUTOFF", "ten"),
     ("NUMCORE_FACTORIZE_THRESHOLD", " 1_000 ")])
  have hlimit := h.smallPrimeLimit.read "-7" (-7) (by decide) (by decide)
  have hdivision := h.trialDivisionLimit.read " 1_000 " 1000 (by decide) (by decide)
  have hblank : ∀ c ∈ " \t".toList, Text.isBlank c := List.all_eq_true.mp (by decide)
  refine ⟨s, hs, by omega, ?_, ?_, ?_, by omega, ?_⟩
  · exact h.tolerance.notFinite "nan" Binary64.nan (by decide) (by decide) (by decide)
  · exact h.factorialTableSize.blank " \t" (by decide) hblank
  · exact h.simpleFactorialCutoff.unread "ten" (by decide) (by decide)
  · exact h.splitAttempts.unset (by decide)

end Settings

end ExactNumerics
