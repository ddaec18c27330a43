import SchemaLayout.Feature.Table
import SchemaLayout.Text.Json.Decoder
import SchemaLayout.Text.Json.Reader

/-!
# Features in documents

How feature sets and default tables stand in JSON. A feature set is an object that names the features
it sets; every key that is not one of the six is an extension feature, whatever its value. The names
of editions, features and their values are spelled exactly.
-/

namespace SchemaLayout

open Json (Decoder)

/-! ## Names of values -/

/-- The names of the editions. -/
def Edition.names : List (String × Edition) :=
  Edition.all.map fun edition => (edition.keyword, edition)

/-- The names of the kinds of presence. -/
def FieldPresence.names : List (String × FieldPresence) :=
  [("EXPLICIT", .explicit), ("IMPLICIT", .implicit), ("LEGACY_REQUIRED", .legacyRequired)]

/-- The names of the kinds of enum. -/
def EnumOpenness.names : List (String × EnumOpenness) :=
  [("OPEN", .openEnded), ("CLOSED", .closed)]

/-- The names of the encodings of repeated fields. -/
def RepeatedEncoding.names : List (String × RepeatedEncoding) :=
  [("PACKED", .packed), ("EXPANDED", .expanded)]

/-- The names of the ways to check text. -/
def Utf8Validation.names : List (String × Utf8Validation) :=
  [("VERIFY", .verify), ("NONE", .none)]

/-- The names of the encodings of messages. -/
def MessageEncoding.names : List (String × MessageEncoding) :=
  [("LENGTH_PREFIXED", .lengthPrefixed), ("DELIMITED", .delimited)]

/-- The names of the ways to suit JSON. -/
def JsonFormat.names : List (String × JsonFormat) :=
  [("ALLOW", .allow), ("LEGACY_BEST_EFFORT", .legacyBestEffort)]

/-- The name of `value` in a table of names. -/
def nameIn {α : Type} [DecidableEq α] (names : List (String × α)) (value : α) : String :=
  ((names.find? (·.2 = value)).map (·.1)).getD ""

/-! ## Feature sets -/

namespace FeatureSet

/-- The members of a document that are features known by name; all others are extensions. -/
def memberNames : List String :=
  ["fieldPresence", "enumType", "repeatedFieldEncoding", "utf8Validation", "messageEncoding",
    "jsonFormat"]

/-- The extension features among the members of a set: those outside `memberNames`. Of two values for one key
the last counts. -/
def decodeExtensions (room : Nat) : List (String × Json) → Option Extensions := fun members => do
  let written ← (members.filter (!memberNames.contains ·.1)).mapM fun (key, document) =>
    (Decoder.free room document).map (key, ·)
  return Extensions.merge [] written

/-- Reads a feature set, which must be an object. -/
def decode : Decoder FeatureSet
  | room + 1, .object all => do
    let members ← Json.members? memberNames (.object all)
    let leaf {α : Type} (name : String) (names : List (String × α)) : Option (Option α) :=
      Json.member members name room (.optional (.oneOf names)) none
    return {
      fieldPresence := ← leaf "fieldPresence" FieldPresence.names
      enumOpenness := ← leaf "enumType" EnumOpenness.names
      repeatedEncoding := ← leaf "repeatedFieldEncoding" RepeatedEncoding.names
      utf8Validation := ← leaf "utf8Validation" Utf8Validation.names
      messageEncoding := ← leaf "messageEncoding" MessageEncoding.names
      jsonFormat := ← leaf "jsonFormat" JsonFormat.names
      extensions := ← decodeExtensions room members
    }
  | _, _ => none

/-- The member of a feature that has a name, if it is set. -/
def leaf {α : Type} [DecidableEq α] (name : String) (names : List (String × α)) (value : Option α) :
    List (String × Json) :=
  value.toList.map fun value => (name, .text (nameIn names value))

/-- The members of all features that have names. -/
def leaves (set : FeatureSet) : List (String × Json) :=
  leaf "fieldPresence" FieldPresence.names set.fieldPresence
    ++ leaf "enumType" EnumOpenness.names set.enumOpenness
    ++ leaf "repeatedFieldEncoding" RepeatedEncoding.names set.repeatedEncoding
    ++ leaf "utf8Validation" Utf8Validation.names set.utf8Validation
    ++ leaf "messageEncoding" MessageEncoding.names set.messageEncoding
    ++ leaf "jsonFormat" JsonFormat.names set.jsonFormat

/-- Writes a feature set: its `leaves`, then its extension features. -/
def encode (set : FeatureSet) : Json :=
  .object (set.leaves ++ set.extensions)

end FeatureSet

/-- Writes the features of an element, as `FeatureSet.encode` does. -/
def Features.encode (features : Features) : Json :=
  features.toSet.encode

/-- The six known features of an element in one line. -/
def Features.summary (features : Features) : String :=
  String.intercalate "/" [
    nameIn FieldPresence.names features.fieldPresence,
    nameIn EnumOpenness.names features.enumOpenness,
    nameIn RepeatedEncoding.names features.repeatedEncoding,
    nameIn Utf8Validation.names features.utf8Validation,
    nameIn MessageEncoding.names features.messageEncoding,
    nameIn JsonFormat.names features.jsonFormat]

/-! ## Default tables -/

/-- Reads a row of a default table. Its edition must be there. -/
def DefaultsRow.decode : Decoder DefaultsRow
  | 0, _ => none
  | room + 1, document => do
    let members ← document.members? ["edition", "fixedFeatures", "overridableFeatures"]
    return {
      edition := ← Json.requiredMember members "edition" room (.oneOf Edition.names)
      fixed := ← Json.member members "fixedFeatures" room FeatureSet.decode {}
      overridable := ← Json.member members "overridableFeatures" room FeatureSet.decode {}
    }

/-- Writes a row of a default table. -/
def DefaultsRow.encode (row : DefaultsRow) : Json :=
  .object [
    ("edition", .text row.edition.keyword),
    ("fixedFeatures", row.fixed.encode),
    ("overridableFeatures", row.overridable.encode)]

namespace DefaultsTable

/-- Reads a default table. Its bounds must be there. -/
def decode : Decoder DefaultsTable
  | 0, _ => none
  | room + 1, document => do
    let members ← document.members? ["defaults", "minimumEdition", "maximumEdition"]
    return {
      rows := ← Json.member members "defaults" room (.list DefaultsRow.decode) []
      minimum := ← Json.requiredMember members "minimumEdition" room (.oneOf Edition.names)
      maximum := ← Json.requiredMember members "maximumEdition" room (.oneOf Edition.names)
    }

/-- Writes a default table. -/
def encode (table : DefaultsTable) : Json :=
  .object [
    ("defaults", .array (table.rows.map DefaultsRow.encode)),
    ("minimumEdition", .text table.minimum.keyword),
    ("maximumEdition", .text table.maximum.keyword)]

/-- The table that a document holds. -/
def ofJson (document : Json) : Option DefaultsTable :=
  decode Json.nestingLimit document

/-- The table that a text holds, if `Json.parse` reads it. -/
def ofText (source : String) : Option DefaultsTable :=
  (Json.parse source).bind ofJson

end DefaultsTable

end SchemaLayout
