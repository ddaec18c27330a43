import SchemaLayout.Text.Json

/-!
# Feature sets

A feature decides how a kind of element behaves. Six features are known by name; others come from
extensions and are kept as free values under the key they were written with. A `FeatureSet` is what
one element writes down, so any of its features may be unset. `Features` is what an element ends up
with, so none is.

Merging takes every feature from the later set that sets it.
-/

namespace SchemaLayout

/-! ## The six features -/

/-- Whether a field tracks being set. -/
inductive FieldPresence where
  | explicit
  | implicit
  | legacyRequired
  deriving DecidableEq, Inhabited

/-- Whether an enum admits numbers it does not declare. -/
inductive EnumOpenness where
  | openEnded
  | closed
  deriving DecidableEq, Inhabited

/-- How the elements of a repeated field are written. -/
inductive RepeatedEncoding where
  | packed
  | expanded
  deriving DecidableEq, Inhabited

/-- Whether text is checked to be UTF-8. -/
inductive Utf8Validation where
  | verify
  | none
  deriving DecidableEq, Inhabited

/-- How a nested message is delimited. -/
inductive MessageEncoding where
  | lengthPrefixed
  | delimited
  deriving DecidableEq, Inhabited

/-- How strictly names must suit JSON. -/
inductive JsonFormat where
  | allow
  | legacyBestEffort
  deriving DecidableEq, Inhabited

/-! ## Extensions -/

/-- The values of extension features by key, in the order in which the keys first came. `Extensions.insert`
keeps keys distinct. -/
abbrev Extensions := List (String × Json)

namespace Extensions

/-- Sets the value of `key`: in place if the key is there, else at the end. -/
def insert (key : String) (value : Json) : Extensions → Extensions
  | [] => [(key, value)]
  | head :: rest => if head.1 = key then (key, value) :: rest else head :: insert key value rest

/-- Sets the value of every key of `later`, in order. -/
def merge (earlier later : Extensions) : Extensions :=
  later.foldl (fun all (key, value) => all.insert key value) earlier

end Extensions

/-! ## Sparse sets -/

/-- The features that an element writes down. -/
structure FeatureSet where
  fieldPresence : Option FieldPresence := none
  enumOpenness : Option EnumOpenness := none
  repeatedEncoding : Option RepeatedEncoding := none
  utf8Validation : Option Utf8Validation := none
  messageEncoding : Option MessageEncoding := none
  jsonFormat : Option JsonFormat := none
  extensions : Extensions := []
  deriving DecidableEq, Inhabited

/-- The features of an element, all of them set. -/
structure Features where
  fieldPresence : FieldPresence
  enumOpenness : EnumOpenness
  repeatedEncoding : RepeatedEncoding
  utf8Validation : Utf8Validation
  messageEncoding : MessageEncoding
  jsonFormat : JsonFormat
  extensions : Extensions := []
  deriving DecidableEq, Inhabited

namespace FeatureSet

/-- The set in which nothing is set. -/
def empty : FeatureSet := {}

/-- Nothing is set, not even one of the `extensions`. -/
def isEmpty (set : FeatureSet) : Bool :=
  set == empty

/-- The features of both sets, where `later` wins. -/
def merge (earlier later : FeatureSet) : FeatureSet where
  fieldPresence := later.fieldPresence.or earlier.fieldPresence
  enumOpenness := later.enumOpenness.or earlier.enumOpenness
  repeatedEncoding := later.repeatedEncoding.or earlier.repeatedEncoding
  utf8Validation := later.utf8Validation.or earlier.utf8Validation
  messageEncoding := later.messageEncoding.or earlier.messageEncoding
  jsonFormat := later.jsonFormat.or earlier.jsonFormat
  extensions := earlier.extensions.merge later.extensions

/-- The `Features` of a set without gaps, or the name of the first feature it leaves unset. -/
def complete (set : FeatureSet) : Except String Features := do
  let fieldPresence ← set.fieldPresence.elim (throw "field_presence") pure
  let enumOpenness ← set.enumOpenness.elim (throw "enum_type") pure
  let repeatedEncoding ← set.repeatedEncoding.elim (throw "repeated_field_encoding") pure
  let utf8Validation ← set.utf8Validation.elim (throw "utf8_validation") pure
  let messageEncoding ← set.messageEncoding.elim (throw "message_encoding") pure
  let jsonFormat ← set.jsonFormat.elim (throw "json_format") pure
  return {
    fieldPresence, enumOpenness, repeatedEncoding, utf8Validation, messageEncoding, jsonFormat
    extensions := set.extensions
  }

end FeatureSet

namespace Features

/-- The features of an element that overrides some of those it inherits. -/
def merge (inherited : Features) (overrides : FeatureSet) : Features where
  fieldPresence := overrides.fieldPresence.getD inherited.fieldPresence
  enumOpenness := overrides.enumOpenness.getD inherited.enumOpenness
  repeatedEncoding := overrides.repeatedEncoding.getD inherited.repeatedEncoding
  utf8Validation := overrides.utf8Validation.getD inherited.utf8Validation
  messageEncoding := overrides.messageEncoding.getD inherited.messageEncoding
  jsonFormat := overrides.jsonFormat.getD inherited.jsonFormat
  extensions := inherited.extensions.merge overrides.extensions

/-- The same features as a set that has no gaps. -/
def toSet (features : Features) : FeatureSet where
  fieldPresence := some features.fieldPresence
  enumOpenness := some features.enumOpenness
  repeatedEncoding := some features.repeatedEncoding
  utf8Validation := some features.utf8Validation
  messageEncoding := some features.messageEncoding
  jsonFormat := some features.jsonFormat
  extensions := features.extensions

end Features

end SchemaLayout
