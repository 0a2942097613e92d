import ExactNumerics.Catalogue.Integers
import ExactNumerics.Factor.Multiplicative
import ExactNumerics.Value.Order

/-!
# Operations on factorizations

## Main definitions

* `Catalogue.pairOf`: a base and an exponent that are handed over as a list.
* `Catalogue.factors`: the operations with their names.
-/

namespace ExactNumerics

namespace Catalogue

open Parameter Operation

/-- A factorization as a list of powers. -/
def factorizationValue (fs : Factorization) : Value :=
  .list (fs.map fun p => .ofPower p.base p.exponent)

/-- A search from one positive number. -/
def fromPositive (operation : String) (f : Nat → Search Value) : Operation :=
  searchUnary {} (required "n") fun n => do f (← n.checkPositive operation "n")

/-! ### Factorizations -/

/-- A base and an exponent that are handed over as a list of exactly two items. -/
def pairOf (v : Value) : Except Failure (Value × Value) := do
  match ← v.items with
  | [b, e] => return (b, e)
  | _ => Value.badValue

/-- The integers of a base and an exponent, if both are integers. -/
def integerPair? (v : Value) : Option (Int × Int) :=
  match v.items with
  | .ok [.integer b, .integer e] => some (b, e)
  | _ => none

/-- Whether a value is a list, which has no order with a tuple or a power. -/
def isList : Value → Bool
  | .list _ => true
  | _ => false

/-- The integers of bases and exponents, if all are integers and the pairs can be ordered. -/
def integerPairs? (items : List Value) : Option (List (Int × Int)) :=
  if items.all isList || items.all (!isList ·) then items.mapM integerPair? else none

/-- Adds a pair behind pairs that were collected, the last one first: its exponent is added to the
last one's if the bases are equal. -/
def addPair (collected : List (Value × Value)) (v : Value) :
    Except Failure (List (Value × Value)) := do
  let (b, e) ← pairOf v
  match collected with
  | (c, f) :: rest =>
    if c.equals b then return (b, ← f.plus e) :: rest else return (b, e) :: collected
  | [] => return [(b, e)]

/-- Pairs collected by base. The bases and exponents need not be integers, as long as the pairs can
be ordered and equal bases have exponents that can be added. -/
def collectValue (pairs : Value) : Except Failure Value := do
  let items ← pairs.items
  match integerPairs? items with
  | some pairs =>
    return .list ((collectByBase pairs).map fun (b, e) => .power (.integer b) (.integer e))
  | none =>
    let collected ← (← Value.sorted items).foldlM addPair []
    return .list (collected.reverse.map fun (b, e) => .power b e)

/-- The power of a base and an exponent that have to be natural numbers. -/
def checkedPower (v : Value) : Except Failure Power := do
  let (b, e) ← pairOf v
  let b ← b.checkNatural "defactorize" "base"
  let e ← e.checkNatural "defactorize" "exponent"
  return ⟨b, e⟩

/-- The number that some powers multiply to. -/
def productValue (pairs : Value) : Except Failure Value := do
  let fs ← (← pairs.items).mapM checkedPower
  return .integer (Factorization.value fs)

/-- Factorizations and splits. -/
def factorizations : List (String × Operation) :=
  [("factorize", fromPositive "factorize" fun n => return factorizationValue (← Search.factor n)),
   ("factorize_small",
    fromPositive "factorize" fun n => return factorizationValue (← Search.trialDivision n)),
   ("factorize_large",
    fromPositive "factorize" fun n => return factorizationValue (← Search.factorBySplitting n)),
   ("pollard",
    searchUnary ⟨false, true⟩ (required "n") fun n => do
      let n ← n.checkNatural "pollard" "n"
      return .ofOption (fun (d : Nat) => .integer d) (← Search.rho n)),
   ("combine_same_base", unary (required "pairs") collectValue),
   ("defactorize", unary (required "pairs") productValue)]

/-! ### Powers -/

/-- A search from a natural number that may be a power. -/
def fromPossiblePower (operation : String) (f : Nat → Search Value) : Operation :=
  searchUnary {} (required "a") fun a => do f (← a.checkNatural operation "a")

/-- A power that may be absent. -/
def optionalPower : Option Power → Value := Value.ofOption fun p => .ofPower p.base p.exponent

/-- Perfect powers and prime powers. -/
def powers : List (String × Operation) :=
  [("as_power",
    fromPossiblePower "as_power" fun a => return optionalPower (some (← Search.asPower a))),
   ("perfect_power",
    fromPossiblePower "as_power" fun a => return optionalPower (← Search.perfectPower? a)),
   ("is_perfect_power",
    fromPossiblePower "as_power" fun a => return .truth (← Search.perfectPower? a).isSome),
   ("prime_power",
    fromPossiblePower "prime_power" fun a => return optionalPower (← Search.primePower? a)),
   ("is_odd_prime_power",
    fromPossiblePower "prime_power" fun a => return .truth (← Search.isOddPrimePower a))]

/-! ### Functions of the factorization -/

/-- The divisor sum. The number is factored before the exponent is looked at. -/
def divisorSumValue (n k : Value) : Search Value := do
  let fs ← Search.factor (← n.checkPositive "divisor_sum" "n")
  return .integer (divisorSumOf (← k.checkNatural "divisor_sum" "k") fs)

/-- The Legendre symbol. -/
def legendreValue (a p : Value) : Except Failure Value := do
  let a ← a.checkNatural "quadratic_character" "a"
  let p ← p.checkPositive "quadratic_character" "p"
  return .integer (← checkedLegendre a p)

/-- Whether a number is a square modulo another one. -/
def residueValue (a n : Value) : Search Value := do
  let a ← a.checkInteger "quadratic_residue" "a"
  let n ← n.checkPositive "quadratic_residue" "n"
  return .truth (← Search.isQuadraticResidue a n)

/-- Functions of the factorization. -/
def multiplicative : List (String × Operation) :=
  [("prime_divisors",
    fromPositive "prime_divisors" fun n => return .naturals (← Search.primeDivisors n)),
   ("prime_exponents",
    fromPositive "prime_exponents" fun n => return .naturals (← Search.primeExponents n)),
   ("prime_omega",
    fromPositive "prime_omega" fun n => do
      let ps ← Search.primeDivisors n
      return .integer ps.length),
   ("totient",
    fromPositive "totient" fun n => do
      let m ← Search.totient n
      return .integer m),
   ("moebius_mu", fromPositive "moebius_mu" fun n => return .integer (← Search.moebius n)),
   ("divisor_sum", searchBinary {} (required "n") (optional "k" (.integer 1)) divisorSumValue),
   ("divisors",
    searchUnary {} (required "n") fun n => do
      return .naturals (← Search.divisors (← n.checkInteger "divisors" "n"))),
   ("mangoldt_lambda",
    .search {} fun call => do
      match ← call.bind [required "n"] with
      | [n] =>
        let x ← Search.mangoldt (← n.checkPositive "mangoldt_lambda" "n")
        return .approximate (.double x)
      | _ => throw (.unworded .type)),
   ("quadratic_character", binary (required "a") (required "p") legendreValue),
   ("quadratic_residue", searchBinary {} (required "a") (required "n") residueValue)]

/-- The operations on factorizations. -/
def factors : List (String × Operation) := factorizations ++ powers ++ multiplicative

end Catalogue

end ExactNumerics
