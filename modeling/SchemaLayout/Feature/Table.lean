import SchemaLayout.Edition
import SchemaLayout.Feature.Set

/-!
# Default features

What a feature is when nothing sets it depends on the edition. A table has rows in ascending order
of edition; a row holds from its edition on, until the next row. Some of its features are fixed and
others may be overridden, which makes no difference for the values: a row stands for both together.
-/

namespace SchemaLayout

/-- The default features from `edition` on. -/
structure DefaultsRow where
  edition : Edition
  fixed : FeatureSet := {}
  overridable : FeatureSet := {}
  deriving DecidableEq, Inhabited

/-- All features of a row, `fixed` and `overridable`; an overridable one wins. -/
def DefaultsRow.features (row : DefaultsRow) : FeatureSet :=
  row.fixed.merge row.overridable

/-- The default features of the editions from `minimum` to `maximum`. -/
structure DefaultsTable where
  rows : List DefaultsRow := []
  minimum : Edition
  maximum : Edition
  deriving DecidableEq, Inhabited

namespace DefaultsTable

/-- The row that holds for `edition`: the last of the rows before the first that starts later. -/
def rowFor? (table : DefaultsTable) (edition : Edition) : Option DefaultsRow :=
  (table.rows.takeWhile (·.edition ≤ edition)).getLast?

/-! ## The standard table -/

/-- The features of the oldest syntax. -/
def proto2Features : FeatureSet where
  fieldPresence := some .explicit
  enumOpenness := some .closed
  repeatedEncoding := some .expanded
  utf8Validation := some .none
  messageEncoding := some .lengthPrefixed
  jsonFormat := some .legacyBestEffort

/-- The features of the syntax after it. -/
def proto3Features : FeatureSet where
  fieldPresence := some .implicit
  enumOpenness := some .openEnded
  repeatedEncoding := some .packed
  utf8Validation := some .verify
  messageEncoding := some .lengthPrefixed
  jsonFormat := some .allow

/-- The table that holds unless another one is given. -/
def standard : DefaultsTable where
  rows := [
    { edition := .legacy, fixed := proto2Features },
    { edition := .proto3, fixed := proto3Features },
    { edition := .edition2023, overridable := { proto3Features with fieldPresence := some .explicit } }
  ]
  minimum := .proto2
  maximum := .edition2024

end DefaultsTable

end SchemaLayout
