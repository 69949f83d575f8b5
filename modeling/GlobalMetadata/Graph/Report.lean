import GlobalMetadata.Error
import Std.Data.ExtTreeMap

/-!
# Failures

A class that cannot be created or completed is left out, and the failure is written down under the
place where it happened. A log keeps its entries in order of their sites: by type definition, and
last the instantiations of the registration tables, which belong to none. A site has one entry.
-/

namespace GlobalMetadata

/-- Where resolution can fail. -/
inductive FailureSite
  /-- Completing a class of a type definition. -/
  | completion (definition class_ : Nat)
  /-- Creating the class of a type definition. -/
  | creation (definition : Nat)
  /-- Resolving an instantiation of the registration tables, given by its position. -/
  | listed (position : Nat)
  deriving DecidableEq, Repr

/-- The place of a site among all sites, in lexicographic order: by type definition, where the
completion of classes comes before the creation, and last what belongs to no definition. -/
def FailureSite.code : FailureSite → List Nat
  | .completion definition class_ => [0, definition, 0, class_]
  | .creation definition => [0, definition, 1]
  | .listed position => [1, position]

/-- Different sites have different places. -/
theorem FailureSite.code_inj {a b : FailureSite} : a.code = b.code ↔ a = b := by
  cases a <;> cases b <;> simp [code]

/-- A failure. -/
structure Failure where
  /-- The type definition, if there is one. -/
  definition : Option Nat
  /-- What was to be resolved. -/
  subject : String
  /-- Why it could not be. -/
  error : Error
  deriving DecidableEq, Repr

/-- The failures so far, by the places of their sites. -/
abbrev FailureLog :=
  Std.ExtTreeMap (List Nat) Failure

/-- The log with an entry for a site, in place of an earlier one. -/
def FailureLog.record (log : FailureLog) (site : FailureSite) (failure : Failure) : FailureLog :=
  log.insert site.code failure

/-- The outcome of resolution. -/
structure Report where
  /-- The failures, by type definition; those without one come last. -/
  failures : List Failure
  /-- The number of resolved classes. -/
  classes : Nat
  /-- How many of them are instantiations. -/
  instantiations : Nat
  /-- How often an instantiation was replaced by its open definition. -/
  truncated : Nat
  deriving DecidableEq, Repr

/-- Whether everything was resolved as it stands. -/
def Report.isClean (report : Report) : Bool :=
  report.failures.isEmpty && report.truncated == 0

end GlobalMetadata
