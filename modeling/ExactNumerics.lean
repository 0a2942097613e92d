import ExactNumerics.Binary64.Spacing
import ExactNumerics.Integer.Power
import ExactNumerics.Integer.ChineseRemainder
import ExactNumerics.Settings.Basic
import ExactNumerics.Random.Draws
import ExactNumerics.Prime.Table
import ExactNumerics.Prime.StrongPseudoprime
import ExactNumerics.Prime.Primality
import ExactNumerics.Factor.Multiplicative
import ExactNumerics.Combinatorics
import ExactNumerics.Flonum.Range
import ExactNumerics.Flonum.Sum
import ExactNumerics.Flonum.Collect
import ExactNumerics.Flonum.Discrepancy
import ExactNumerics.Text.Numeral
import ExactNumerics.Text.Quoted
import ExactNumerics.Value.Equality
import ExactNumerics.Value.Nested
import ExactNumerics.Settings.Environment
import ExactNumerics.Document.Json
import ExactNumerics.Binary64.Constants
import ExactNumerics.Session.Operation
import ExactNumerics.Catalogue.Integers
import ExactNumerics.Catalogue.Primes
import ExactNumerics.Catalogue.Factors
import ExactNumerics.Catalogue.Doubles
import ExactNumerics.Catalogue.Vectors
import ExactNumerics.Document.Yaml.Content
import ExactNumerics.Session.Step
import ExactNumerics.Proofs.Prime.TrialSeries
import ExactNumerics.Proofs.Prime.TrialCount
import ExactNumerics.Proofs.Factor.Agreement
import ExactNumerics.Proofs.Prime.Verdict
import ExactNumerics.Proofs.Prime.SignedNeighbours
import ExactNumerics.Proofs.Integer.Bezout
import ExactNumerics.Proofs.Prime.Enumeration
import ExactNumerics.Proofs.Integer.ResidueRing
import ExactNumerics.Proofs.Binary64.Ordinal
import ExactNumerics.Proofs.Binary64.Step
import ExactNumerics.Proofs.Binary64.Rounding
import ExactNumerics.Proofs.Binary64.Ulp
import ExactNumerics.Proofs.Binary64.Grid
import ExactNumerics.Proofs.Flonum.Expansion
import ExactNumerics.Proofs.Flonum.Sum
import ExactNumerics.Proofs.Flonum.Metric
import ExactNumerics.Proofs.Flonum.Collect
import ExactNumerics.Proofs.Flonum.Discrepancy
import ExactNumerics.Proofs.Value.Cells
import ExactNumerics.Proofs.Session.Overwrite
import ExactNumerics.Proofs.Session.Step
import ExactNumerics.Proofs.Session.Detached
import ExactNumerics.Proofs.Session.Names
import ExactNumerics.Proofs.Session.Vectors
import ExactNumerics.Proofs.Session.Tables
import ExactNumerics.Proofs.Session.DefaultTable
import ExactNumerics.Proofs.Factor.Orbit
import ExactNumerics.Proofs.Prime.Tolerance
import ExactNumerics.Proofs.Factor.Covered
import ExactNumerics.Proofs.Factor.Collect
import ExactNumerics.Proofs.Factor.QuadraticResidue
import ExactNumerics.Proofs.Factor.PerfectPower
import ExactNumerics.Proofs.Integer.ChineseRemainder
import ExactNumerics.Proofs.Combinatorics
import ExactNumerics.Proofs.Session.CopyRange
import ExactNumerics.Proofs.Coefficients
import ExactNumerics.Proofs.Factor.Multiplicative
import ExactNumerics.Proofs.Factor.Divisors
import ExactNumerics.Proofs.Factor.Moebius
import ExactNumerics.Proofs.Loop
import ExactNumerics.Proofs.Integer.Multiplicity
import ExactNumerics.Proofs.Factor.PrimePower
import ExactNumerics.Proofs.Factor.Legendre
import ExactNumerics.Proofs.Flonum.Copy
import ExactNumerics.Proofs.Integer.RootDescent
import ExactNumerics.Proofs.Settings.Variables
import ExactNumerics.Proofs.Settings.UnknownKeys
