import SchemaLayout.Feature.Rules
import SchemaLayout.Target

/-!
# Configurations

What can be chosen when a schema is put together and compiled.
-/

namespace SchemaLayout

/-- The choices that a schema and its compiled messages depend on. -/
structure Config where
  defaults : DefaultsTable := .standard
  extensions : List FeatureExtension := []
  /-- The targets that programs are written for. Layouts are computed for both. -/
  targets : List Target := Target.all
  /-- Messages that cost this much or more are stored out of line. -/
  costThreshold : Nat := 17
  deriving DecidableEq, Inhabited

end SchemaLayout
