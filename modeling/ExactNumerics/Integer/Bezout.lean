import ExactNumerics.Failure

/-!
# Common divisors and Bézout coefficients

## Main definitions

* `gcdList`, `lcmList`, `coprime`, `pairwiseCoprime`: for any number of integers.
* `divides a b`: whether `a ∣ b`, refused for `a = 0`.
* `bezoutPair a b`: coefficients of `gcd a b`, by the extended Euclidean algorithm with quotients
  rounded down.
* `bezoutList a bs`: coefficients for any number of integers, folded from the left.
-/

namespace ExactNumerics

/-- The greatest common divisor; `0` for no number at all. -/
def gcdList (xs : List Int) : Nat := xs.foldl (fun g x => Nat.gcd g x.natAbs) 0

/-- The least common multiple; `1` for no number at all. -/
def lcmList (xs : List Int) : Nat := xs.foldl (fun m x => Nat.lcm m x.natAbs) 1

/-- Whether no prime divides all the numbers. -/
def coprime (xs : List Int) : Bool := gcdList xs == 1

/-- Whether no prime divides two of the numbers. -/
def pairwiseCoprime : List Int → Bool
  | [] => true
  | x :: xs => xs.all (fun y => Int.gcd x y == 1) && pairwiseCoprime xs

/-- Whether `a` divides `b`. -/
def divides (a b : Int) : Except Failure Bool :=
  if a = 0 then .error (.zeroDivisor b) else .ok (b % a == 0)

/-! ### Bézout coefficients -/

/-- A remainder after division rounded down is smaller than the divisor. -/
theorem natAbs_sub_fdiv_mul_lt (a : Int) {b : Int} (h : b ≠ 0) :
    (a - a.fdiv b * b).natAbs < b.natAbs := by
  have hm : a - a.fdiv b * b = a.fmod b := by rw [Int.fdiv_mul_self]; omega
  have h0 := Int.emod_nonneg a h
  have h1 := Int.emod_lt a h
  rw [hm, Int.fmod_eq_emod]
  split
  · omega
  · rename_i hn
    have hne : a % b ≠ 0 := fun h2 => hn (.inr (Int.dvd_of_emod_eq_zero h2))
    omega

/-- Runs the extended Euclidean algorithm from two rows `r = a * u + b * v`, and makes the last
nonzero remainder non-negative. -/
def bezoutRows (r u v r' u' v' : Int) : Int × Int :=
  if _h : r' = 0 then if r < 0 then (-u, -v) else (u, v)
  else
    let q := r.fdiv r'
    bezoutRows r' u' v' (r - q * r') (u - q * u') (v - q * v')
termination_by r'.natAbs
decreasing_by exact natAbs_sub_fdiv_mul_lt r _h

/-- Coefficients `(u, v)` with `a * u + b * v = gcd a b`. -/
def bezoutPair (a b : Int) : Int × Int := bezoutRows a 1 0 b 0 1

/-- Adds one number to a list of coefficients: the earlier ones are scaled by the coefficient of
the running divisor. -/
def bezoutExtend (g : Nat) (coefficients : List Int) (b : Int) : Nat × List Int :=
  let (s, t) := bezoutPair g b
  (Int.gcd g b, coefficients.map (· * s) ++ [t])

/-- Coefficients of the greatest common divisor of `a :: bs`, one for each number. -/
def bezoutList (a : Int) (bs : List Int) : List Int :=
  (bs.foldl (fun (g, cs) b => bezoutExtend g cs b) (a.natAbs, [if a < 0 then -1 else 1])).2

end ExactNumerics
