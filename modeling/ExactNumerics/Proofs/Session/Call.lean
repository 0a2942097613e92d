import ExactNumerics.Proofs.Failure
import ExactNumerics.Session.Call

/-!
# Operands

The value for the first parameter of an operation is the first one by position or, if there is none,
the one under its name.

## Main definitions

* `Call.operand` — the value for a first parameter

## Main results

* `Call.operand_of_bind` — a first parameter has the value that is handed over for it
-/

namespace ExactNumerics

namespace Call

variable {c : Call} {p : Parameter} {ps : List Parameter} {v : Value} {vs : List Value}

/-- The value for the first parameter, which has the given name. -/
def operand (c : Call) (name : String) : Option Value :=
  c.positional.head?.or (c.named.lookup name)

/-- A first parameter without a default has the value that is handed over for it. -/
theorem operand_of_bind (hp : p.default? = none) (h : c.bind (p :: ps) = .ok (v :: vs)) :
    c.operand p.name = some v := by
  rw [bind] at h
  split at h
  · rw [operand]
    cases hpos : c.positional with
    | nil =>
      rw [hpos, bindFrom, hp, Option.or_none] at h
      rw [List.head?_nil, Option.none_or]
      split at h
      · rename_i x hx
        obtain ⟨xs, -, hxs⟩ := bind_eq_ok.mp h
        rw [hx, (List.cons.inj (Except.ok.inj hxs)).1]
      · exact absurd h (by simp)
    | cons x xs =>
      rw [hpos, bindFrom] at h
      split at h
      · exact absurd h (by simp)
      · obtain ⟨ys, -, hys⟩ := bind_eq_ok.mp h
        rw [List.head?_cons, Option.some_or, (List.cons.inj (Except.ok.inj hys)).1]
  · exact absurd h (by simp)

end Call

end ExactNumerics
