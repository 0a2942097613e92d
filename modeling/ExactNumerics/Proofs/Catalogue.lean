import ExactNumerics.Catalogue

/-!
# Finding operations

No two operations have the same name, so the operation that is found by a name is the one in the
catalogue. What kind an operation is can be read off the catalogue: there are four that overwrite
and eleven that act on what calls share.

## Main definitions

* `Operation.overwrites`, `Operation.administers` — two of the four kinds

## Main results

* `Catalogue.find?_eq_some_iff` — the operation with a given name
* `Catalogue.mem_writing_of_find?` — the operations that overwrite
* `Catalogue.mem_administration_of_find?` — the operations that act on what calls share
-/

namespace ExactNumerics

namespace Operation

/-- Whether an operation overwrites a vector. -/
def overwrites : Operation → Bool
  | .overwrite _ => true
  | _ => false

/-- Whether an operation acts on what calls share. -/
def administers : Operation → Bool
  | .administer _ => true
  | _ => false

end Operation

namespace Catalogue

open Parameter Operation

variable {name : String} {op : Operation}

theorem nodup_names : (all.map Prod.fst).Nodup := by decide +kernel

theorem mem_all_of_find? (h : find? name = some op) : (name, op) ∈ all := by
  obtain ⟨before, later, heq, -⟩ := List.lookup_eq_some_iff.mp h
  rw [heq]
  exact List.mem_append_right _ List.mem_cons_self

/-- **The operation with a given name.** -/
theorem find?_eq_some_iff : find? name = some op ↔ (name, op) ∈ all := by
  refine ⟨mem_all_of_find?, fun h => ?_⟩
  obtain ⟨before, later, heq⟩ := List.append_of_mem h
  refine List.lookup_eq_some_iff.mpr ⟨before, later, heq, fun p hp => ?_⟩
  have hnodup := nodup_names
  rw [heq, List.map_append, List.nodup_append] at hnodup
  have hne := hnodup.2.2 p.1 (List.mem_map_of_mem hp) name (by simp)
  simpa using hne.symm

/-- The operations that act on what calls share. -/
def administration : List (String × Operation) :=
  [("scripted_rng", errandUnary (required "script") newSource),
   ("sieve", errandUnary (optional "limit") newTable),
   ("sieve_is_prime", errandBinary (required "oracle") (required "n") tableEntry),
   ("sieve_primes", errandBinary (required "oracle") (optional "n") tablePrimes),
   ("sieve_not_prime", errandUnary (required "oracle") tableRest),
   ("get_default_oracle", errandNullary defaultTableValue),
   ("set_default_oracle", errandUnary (required "oracle") replaceDefaultTable),
   ("setenv", errandBinary (required "name") (required "value") assignVariable),
   ("config_from_env", errandNullary environmentSettings),
   ("get_config", errandNullary (return .settings (← Errand.settings))),
   ("set_config", errandUnary (required "config") replaceSettings)]

theorem filter_overwrites : all.filter (·.2.overwrites) = writing := rfl

theorem filter_administers : all.filter (·.2.administers) = administration := rfl

/-- **No other operation overwrites.** -/
theorem mem_writing_of_find? {f : Call → Except Failure Overwrite}
    (h : find? name = some (.overwrite f)) : (name, .overwrite f) ∈ writing := by
  rw [← filter_overwrites]
  exact List.mem_filter.mpr ⟨mem_all_of_find? h, rfl⟩

/-- **No other operation acts on what calls share.** -/
theorem mem_administration_of_find? {f : Call → Errand Value}
    (h : find? name = some (.administer f)) : (name, .administer f) ∈ administration := by
  rw [← filter_administers]
  exact List.mem_filter.mpr ⟨mem_all_of_find? h, rfl⟩

/-- The operations that act on what calls share are found by their names. -/
theorem find?_of_mem_administration (h : (name, op) ∈ administration) : find? name = some op := by
  rw [← filter_administers] at h
  exact find?_eq_some_iff.mpr (List.mem_filter.mp h).1

end Catalogue

end ExactNumerics
