import SchemaLayout.Feature.Table
import SchemaLayout.Declaration.Record

/-!
# Resolving features

Every element inherits the features of the element around it and overrides those it writes down; the
outermost elements inherit the defaults of the file's edition. Extension features count only when
they are registered. In files below edition 2023 a field instead takes the defaults, what its own
declaration implies, and what it writes down.
-/

namespace SchemaLayout

/-! ## Errors -/

/-- Why an edition has no features. -/
inductive FeatureError where
  | unsupportedEdition (edition minimum maximum : Edition)
  | noDefault (edition : Edition)
  | invalidExtension (name extendee : String)
  | incompleteDefaults (edition : Edition) (feature : String)
  deriving DecidableEq

/-- The name of the message that holds the features of a document. -/
def featureSetName : String := "google.protobuf.FeatureSet"

/-- The code of an error, which says what is wrong but not with what. -/
def FeatureError.code : FeatureError → String
  | unsupportedEdition .. => "UnsupportedEdition"
  | noDefault _ => "NoDefault"
  | invalidExtension .. => "InvalidExtension"
  | incompleteDefaults .. => "IncompleteDefaults"

/-- The text of an error. -/
def FeatureError.message : FeatureError → String
  | unsupportedEdition edition minimum maximum =>
    "Edition " ++ edition.display ++ " is not in the supported range (" ++ minimum.display ++ "..."
      ++ maximum.display ++ ")"
  | noDefault edition => "No default value found for edition " ++ edition.display
  | invalidExtension name extendee =>
    "Passed an extension that wasn't to " ++ featureSetName ++ ": " ++ name ++ " extends " ++ extendee
  | incompleteDefaults edition feature =>
    "Defaults for edition " ++ edition.display ++ " leave feature `" ++ feature ++ "` unset"

/-! ## Registered extensions -/

/-- An extension that adds a feature. -/
structure FeatureExtension where
  name : String
  extendee : String
  deriving DecidableEq, Inhabited

/-- The extension is one of `featureSetName`, however many dots its reference starts with. -/
def FeatureExtension.extendsFeatures (extension : FeatureExtension) : Bool :=
  extension.extendee.toList.dropWhile (· = '.') = featureSetName.toList

/-- The extension name that a key means: brackets around it and dots in front of it do not count. -/
def featureName (key : String) : List Char :=
  let inner := key.toList.dropWhile (· = '[')
  let inner := (inner.reverse.dropWhile (· = ']')).reverse
  inner.dropWhile (· = '.')

/-! ## Rules -/

/-- How features are resolved in the files of one edition. -/
structure FeatureRules where
  edition : Edition
  defaults : Features
  extensions : List FeatureExtension
  deriving Inhabited

namespace FeatureRules

/-- The rules of an edition: the table must cover it with a row that sets every feature, and every registered
extension must be one that `extendsFeatures`. -/
def ofTable (edition : Edition) (table : DefaultsTable) (extensions : List FeatureExtension) :
    Except FeatureError FeatureRules := do
  if edition < table.minimum ∨ table.maximum < edition then
    throw (.unsupportedEdition edition table.minimum table.maximum)
  let some row := table.rowFor? edition | throw (.noDefault edition)
  if let some stray := extensions.find? (!·.extendsFeatures) then
    throw (.invalidExtension stray.name stray.extendee)
  match row.features.complete with
  | .ok defaults => return { edition, defaults, extensions }
  | .error feature => throw (.incompleteDefaults edition feature)

/-- The `featureName` of the key is an extension that is registered. -/
def isRegistered (rules : FeatureRules) (key : String) : Bool :=
  rules.extensions.any (·.name.toList = featureName key)

/-- A written set without the extensions that are not `isRegistered`. -/
def registered (rules : FeatureRules) (written : FeatureSet) : FeatureSet :=
  { written with extensions := written.extensions.filter (rules.isRegistered ·.1) }

/-- The features of an element that writes down `written` inside one with the features `inherited`. -/
def resolve (rules : FeatureRules) (written : Option FeatureSet) (inherited : Features) : Features :=
  match written with
  | none => inherited
  | some written => inherited.merge (rules.registered written)

/-- The features that the declaration of a field implies in a file below `edition2023`. -/
def implied (rules : FeatureRules) (field : FieldDecl) : FeatureSet where
  fieldPresence := if field.label = .required then some .legacyRequired else none
  messageEncoding := if field.type = .group then some .delimited else none
  repeatedEncoding :=
    match field.options.bind (·.packed) with
    | some true => some .packed
    | some false => if rules.edition = .proto3 then some .expanded else none
    | none => none

/-- The features of a field inside an element with the features `inherited`. -/
def resolveField (rules : FeatureRules) (field : FieldDecl) (inherited : Features) : Features :=
  let written := field.options.bind (·.features)
  if rules.edition.isLegacy then
    rules.resolve (some ((rules.implied field).merge (written.getD .empty))) rules.defaults
  else
    rules.resolve written inherited

end FeatureRules

end SchemaLayout
