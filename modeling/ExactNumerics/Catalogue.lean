import ExactNumerics.Catalogue.Configuration
import ExactNumerics.Catalogue.Doubles
import ExactNumerics.Catalogue.Factors
import ExactNumerics.Catalogue.Primes
import ExactNumerics.Catalogue.Vectors

/-!
# The operations by name

## Main definitions

* `Catalogue.all`: all operations with their names.
* `Catalogue.find?`: the operation with a given name.
-/

namespace ExactNumerics

namespace Catalogue

/-- All operations with their names. -/
def all : List (String × Operation) :=
  integers ++ primes ++ factors ++ doubles ++ vectors ++ configuration

/-- The operation with a given name. -/
def find? (name : String) : Option Operation := all.lookup name

end Catalogue

end ExactNumerics
