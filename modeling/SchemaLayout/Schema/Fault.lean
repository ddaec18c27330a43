import SchemaLayout.Feature.Rules

/-!
# Faults

What can be wrong with files that are put together to a schema. A fault lies in what the declarations
say; a schema error is a fault or the lack of features for the edition of a file.
-/

namespace SchemaLayout

/-- What is wrong with the declarations of a file. -/
inductive Fault where
  | registeredTwice (key : String)
  | mapEntryShape (message : String) (fields : Nat)
  | realOneofAfterSynthetic (message : String)
  | oneofIndex (field : String) (index : Int32) (count : Nat)
  | fieldNumber (field : String) (number : Int32)
  | repeatedNumber (message : String) (number : Int32)
  | unknownImport (importer name : String)
  | unknownMessage (owner name : String)
  | unknownEnum (owner name : String)
  | missingTypeName (owner : String)
  | noContainingType (owner : String)
  deriving DecidableEq

/-- The text of a fault. -/
def Fault.message : Fault → String
  | registeredTwice key => "allocate: `" ++ key ++ "` is registered twice"
  | mapEntryShape message fields =>
    "allocate: map entry `" ++ message ++ "` must have exactly a key and a value field, found "
      ++ toString fields
  | realOneofAfterSynthetic message =>
    "allocate: `" ++ message ++ "` declares a real oneof after a synthetic one"
  | oneofIndex field index count =>
    "allocate: `" ++ field ++ "` has oneof index " ++ toString index.toInt
      ++ " but its message declares " ++ toString count ++ " oneofs"
  | fieldNumber field number =>
    "allocate: `" ++ field ++ "` has invalid field number " ++ toString number.toInt
  | repeatedNumber message number =>
    "allocate: `" ++ message ++ "` declares field number " ++ toString number.toInt
      ++ " more than once"
  | unknownImport importer name =>
    "bind: `" ++ importer ++ "` imports `" ++ name ++ "`, which was not added before it"
  | unknownMessage owner name =>
    "bind: `" ++ owner ++ "` references unknown message type `" ++ name ++ "`"
  | unknownEnum owner name =>
    "bind: `" ++ owner ++ "` references unknown enum type `" ++ name ++ "`"
  | missingTypeName owner =>
    "bind: `" ++ owner ++ "` has a message or enum type but no type name"
  | noContainingType owner => "descriptor: containing type of `" ++ owner ++ "` read before bind"

/-- Why a file cannot be added to a schema: there are no `FeatureRules` for it, or its declarations are at
fault. -/
inductive SchemaError where
  | features (file : String) (error : FeatureError)
  | fault (cause : Fault)
  deriving DecidableEq

/-- The text of an error. -/
def SchemaError.message : SchemaError → String
  | features file error => file ++ ": " ++ error.message
  | fault cause => cause.message

end SchemaLayout
