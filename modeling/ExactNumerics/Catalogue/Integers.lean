import ExactNumerics.Combinatorics
import ExactNumerics.Integer.ChineseRemainder
import ExactNumerics.Integer.Power
import ExactNumerics.Session.Operation

/-!
# Operations on integers

Checked integers, common divisors, residues, roots and combinatorial numbers, under the names by
which they are called.

## Main definitions

* `Catalogue.residueStep`: one step of a chain of residues.
* `Catalogue.integers`: the operations with their names.
-/

namespace ExactNumerics

namespace Catalogue

open Parameter Operation

/-! ### Checked integers -/

/-- A check of a value under names that are handed over as well. The names are only written when the
value is refused. -/
def checkUnder (check : String → String → Value → Except Failure Int) (limit : DigitLimit)
    (v name operation : Value) : Except Failure Value :=
  match check operation.plain.text name.plain.text v with
  | .ok i => .ok (.integer i)
  | .error f => do
    let _ ← (operation.plain ++ name.plain).written limit
    throw f

/-- A checked natural number as an integer. -/
def naturalUnder (operation name : String) (v : Value) : Except Failure Int :=
  return (← v.checkNatural operation name)

/-- A checked positive number as an integer. -/
def positiveUnder (operation name : String) (v : Value) : Except Failure Int :=
  return (← v.checkPositive operation name)

/-- The checks of integers. -/
def checks : List (String × Operation) :=
  let three := ternaryWithin (required "value") (required "name") (required "operation")
  [("as_integer", three (checkUnder fun operation name v => v.checkInteger operation name)),
   ("as_natural", three (checkUnder naturalUnder)),
   ("as_positive", three (checkUnder positiveUnder)),
   ("Natural",
    ternaryWithin (required "value") (optional "name" (.text "value"))
      (optional "operation" (.text "Natural")) (checkUnder naturalUnder))]

/-! ### Common divisors -/

/-- Checked integers. -/
def checkAll (operation name : String) (vs : List Value) : Except Failure (List Int) :=
  vs.mapM (Value.checkInteger operation name)

/-- An operation on any number of integers. -/
def ofIntegers (operation : String) (f : List Int → Value) : Operation :=
  variadic fun vs => return f (← checkAll operation "x" vs)

/-- Divisibility. -/
def dividesValue (a b : Value) : Except Failure Value := do
  let a ← a.checkInteger "divides" "a"
  let b ← b.checkInteger "divides" "b"
  return .truth (← divides a b)

/-- Coefficients for one integer and any number of others. -/
def bezoutValue (a : Value) (bs : List Value) : Except Failure Value := do
  let a ← a.checkInteger "bezout" "a"
  return .integers (bezoutList a (← checkAll "bezout" "b" bs))

/-- Coefficients for two integers. -/
def bezoutPairValue (a b : Value) : Except Failure Value := do
  let a ← a.checkInteger "bezout" "a"
  let b ← b.checkInteger "bezout" "b"
  let (u, v) := bezoutPair a b
  return .tuple [.integer u, .integer v]

/-- Divisors and multiples. -/
def divisibility : List (String × Operation) :=
  [("gcd", ofIntegers "gcd" fun xs => .integer (gcdList xs)),
   ("lcm", ofIntegers "lcm" fun xs => .integer (lcmList xs)),
   ("coprime", ofIntegers "gcd" fun xs => .truth (coprime xs)),
   ("pairwise_coprime", ofIntegers "pairwise_coprime" fun xs => .truth (pairwiseCoprime xs)),
   ("divides", binary (required "a") (required "b") dividesValue),
   ("bezout",
    .calculate fun call => do
      match ← call.bindRest [required "a"] with
      | ([a], bs) => return .exact (← bezoutValue a bs)
      | _ => Value.wrongType),
   ("bezout_binary", binary (required "a") (required "b") bezoutPairValue)]

/-! ### Residues -/

/-- A power modulo a positive number. -/
def modularPowerValue (a e n : Value) : Except Failure Value := do
  let a ← a.checkInteger "modular_expt" "a"
  let e ← e.checkNatural "modular_expt" "e"
  let n ← n.checkPositive "modular_expt" "n"
  return .integer (modularPower a e n)

/-- An inverse modulo a positive number. -/
def inverseValue (a n : Value) : Except Failure Value := do
  let a ← a.checkInteger "modular_inverse" "a"
  let n ← n.checkPositive "modular_inverse" "n"
  return .ofOption (fun (b : Nat) => .integer b) (modularInverse? a n)

/-- The solution of a system of congruences. -/
def congruencesValue (residues moduli : Value) : Except Failure Value := do
  let rs ← checkAll "solve_chinese" "residue" (← residues.items)
  let ns ← (← moduli.items).mapM (Value.checkPositive "solve_chinese" "modulus")
  return .integer (← solveCongruences rs (ns.map fun (n : Nat) => (n : Int)))

/-- A power in a ring of residues. The exponent is checked first. -/
def residuePower (z : Residues) (a e : Value) : Except Failure Nat := do
  let e ← e.checkInteger "modular_expt" "e"
  let a ← a.checkInteger (if e < 0 then "modular_inverse" else "modular_expt") "a"
  z.pow a e

/-- A quotient in a ring of residues. The divisor is checked and inverted first. -/
def residueQuotient (z : Residues) (a b : Value) : Except Failure Nat := do
  let b ← b.checkInteger "modular_inverse" "a"
  let _ ← modularInverse "modular_div" b z.modulus
  let a ← a.checkInteger "mod" "a"
  z.div a b

/-- The answer of one step of a chain: a method with its values. -/
def residueStep (z : Residues) (method : String) (vs : List Value) : Except Failure Value := do
  let number (n : Nat) : Value := .integer n
  let ints := checkAll "mod" "a"
  match method, vs with
  | "mod", [a] => return number (z.reduce (← a.checkInteger "mod" "a"))
  | "add", xs => return number (z.add (← ints xs))
  | "sub", a :: bs => do
    let a ← a.checkInteger "mod" "a"
    return number (z.sub a (← ints bs))
  | "neg", [a] => return number (z.neg (← a.checkInteger "mod" "a"))
  | "mul", xs => return number (z.mul (← ints xs))
  | "pow", [a, e] => return number (← residuePower z a e)
  | "inv", [a] =>
    return .ofOption (fun (b : Nat) => .integer b) (z.inv? (← a.checkInteger "modular_inverse" "a"))
  | "div", [a, b] => return number (← residueQuotient z a b)
  | "equal", [a, b] => do
    let a ← a.checkInteger "mod" "a"
    return .truth (z.equal a (← b.checkInteger "mod" "a"))
  | _, _ => Value.wrongType

/-- One step of a chain, given as a list of a method and its values. -/
def chainStep (z : Residues) : Value → Except Failure Value
  | .list (.text method :: vs) => residueStep z method vs
  | _ => Value.wrongType

/-- A chain of steps in one ring of residues, which is shown with its modulus. Each step is reported
by itself. -/
def chainValue (limit : DigitLimit) (n steps : Value) : Except Failure Answer := do
  let n ← n.checkPositive "with_modulus" "modulus"
  let steps ← steps.items
  if h : 0 < n then
    let outcomes := steps.map fun s => Failure.reporting limit (chainStep ⟨n, h⟩ s)
    let _ ← (n : Wording).written limit
    return .chain n outcomes
  else throw (.notPositive "with_modulus" "modulus")

/-- Residues. -/
def residues : List (String × Operation) :=
  [("modular_expt", ternary (required "a") (required "e") (required "n") modularPowerValue),
   ("inverse", binary (required "a") (required "n") inverseValue),
   ("solve_chinese", binary (required "residues") (required "moduli") congruencesValue),
   ("modular",
    .calculate fun call => do
      match ← call.bind [required "n", required "steps"] with
      | [n, steps] => chainValue call.digits n steps
      | _ => Value.wrongType)]

/-! ### Roots and powers -/

/-- The integer root and what it leaves of the number. -/
def rootOf (x y : Value) : Except Failure (Nat × Nat) := do
  let x ← x.checkNatural "integer_root" "x"
  let y ← y.checkPositive "integer_root" "y"
  return integerRootRemainder x y

/-- The multiplicity of a divisor, found by a given rule. -/
def multiplicityOf (rule : Nat → Nat → Except Failure Nat) (p n : Value) :
    Except Failure Value := do
  let p ← p.checkPositive "max_dividing_power" "p"
  let n ← n.checkPositive "max_dividing_power" "n"
  return .integer (← rule p n)

/-- The multiplicity by repeated division, which one does not have. -/
def checkedMultiplicity (p n : Nat) : Except Failure Nat :=
  if p = 1 then .error (.noMaximalPower n) else .ok (multiplicity p n)

/-- Roots and powers of integers. -/
def roots : List (String × Operation) :=
  [("integer_root",
    binary (required "x") (required "y") fun x y => return .integer (← rootOf x y).1),
   ("integer_root_remainder",
    binary (required "x") (required "y") fun x y => do
      let (r, rest) ← rootOf x y
      return .tuple [.integer r, .integer rest]),
   ("max_dividing_power",
    binary (required "p") (required "n") (multiplicityOf fun p n => .ok (maxDividingPower p n))),
   ("max_dividing_power_naive",
    binary (required "p") (required "n") (multiplicityOf checkedMultiplicity)),
   ("simple_as_power",
    unary (required "a") fun a => do
      let p := asPower (← a.checkPositive "as_power" "a")
      return .ofPower p.base p.exponent),
   ("perfect_square",
    unary (required "a") fun a => do
      let a ← a.checkNatural "perfect_square" "a"
      return .ofOption (fun (r : Nat) => .integer r) (perfectSquare? a))]

/-! ### Combinatorial numbers -/

/-- A combinatorial number of two natural numbers. -/
def combinatorial (operation : String) (f : Nat → Nat → Search Nat) : Operation :=
  searchBinary ⟨false, false⟩ (required "n") (required "k") fun n k => do
    let n ← n.checkNatural operation "n"
    let k ← k.checkNatural operation "k"
    return .integer (← f n k)

/-- Checked natural numbers. -/
def checkNaturals (operation name : String) (vs : Value) : Except Failure (List Nat) := do
  (← vs.items).mapM (Value.checkNatural operation name)

/-- A multinomial coefficient. -/
def multinomialValue (n ks : Value) : Search Value := do
  let n ← n.checkNatural "multinomial" "n"
  let ks ← checkNaturals "multinomial" "k" ks
  return .integer (← Search.multinomial n ks)

/-- The first factorials. -/
def factorialsValue (size : Value) : Except Failure Value := do
  match ← size.index? with
  | some i => return .tuple ((factorialTable i.toNat).toList.map fun (n : Nat) => .integer n)
  | none => Value.wrongType

/-- Combinatorial numbers. -/
def combinatorics : List (String × Operation) :=
  [("factorial",
    searchUnary ⟨false, false⟩ (required "n") fun n => do
      return .integer (← Search.factorial (← n.checkNatural "factorial" "n"))),
   ("binomial", combinatorial "binomial" Search.binomial),
   ("permutations", combinatorial "permutations" Search.permutations),
   ("multinomial", searchBinary ⟨false, false⟩ (required "n") (required "ks") multinomialValue),
   ("factorial_table", unary (required "size") factorialsValue)]

/-- The operations on integers. -/
def integers : List (String × Operation) :=
  checks ++ divisibility ++ residues ++ roots ++ combinatorics

end Catalogue

end ExactNumerics
