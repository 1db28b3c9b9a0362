import Lineage.Dictionary
import Lineage.Format
import Lineage.Resolver

/-!
# Settings

What can be set: how references are resolved, what is logged, and how results are written. A field
that nobody sets has its default.
-/

namespace Lineage

/-- What is logged. -/
structure Logging where
  /-- The filter for all stages. -/
  default : String := "warn"
  /-- Levels for single stages or targets. -/
  modules : Dictionary String := .empty
  deriving DecidableEq, Repr, Inhabited

/-- How results are written. -/
structure Output where
  format : OutputFormat := .text
  /-- Whether reports in text show types without findings. -/
  showCleanTypes : Bool := true
  deriving DecidableEq, Repr, Inhabited

/-- All settings. -/
structure Settings where
  version : UInt32 := 1
  /-- Whether everything is logged that helps to find errors. -/
  debug : Bool := false
  resolver : Resolver := {}
  logging : Logging := {}
  output : Output := {}
  deriving DecidableEq, Repr, Inhabited

end Lineage
