import SchemaLayout.Declaration.Record
import SchemaLayout.Feature.Document

/-!
# Reading declarations

The declarations that a JSON document holds. Members have the names of the records' fields in camel
case; a member that is left out has its default, and only members that may be absent may be null.
-/

namespace SchemaLayout

open Json (Decoder member members?)

/-! ## Names of values -/

/-- The names of the field types. -/
def FieldType.names : List (String × FieldType) :=
  FieldType.all.map fun type => (type.constant, type)

/-- The names of the labels. -/
def Label.names : List (String × Label) :=
  Label.all.map fun label => (label.constant, label)

/-! ## Options -/

/-- Reads plain options. -/
def PlainOptions.decode : Decoder PlainOptions
  | 0, _ => none
  | room + 1, document => do
    let all ← document.members? ["features", "deprecated"]
    return {
      features := ← member all "features" room (.optional FeatureSet.decode) none
      deprecated := ← member all "deprecated" room .bool false
    }

/-- Reads the options of a file. -/
def FileOptions.decode : Decoder FileOptions
  | 0, _ => none
  | room + 1, document => do
    let all ← document.members? ["features", "deprecated"]
    return {
      features := ← member all "features" room (.optional FeatureSet.decode) none
      deprecated := ← member all "deprecated" room .bool false
    }

/-- Reads the options of a message. -/
def MessageOptions.decode : Decoder MessageOptions
  | 0, _ => none
  | room + 1, document => do
    let all ← document.members? ["features", "mapEntry", "deprecated"]
    return {
      features := ← member all "features" room (.optional FeatureSet.decode) none
      mapEntry := ← member all "mapEntry" room .bool false
      deprecated := ← member all "deprecated" room .bool false
    }

/-- Reads the options of a field. -/
def FieldOptions.decode : Decoder FieldOptions
  | 0, _ => none
  | room + 1, document => do
    let all ← document.members? ["features", "packed", "deprecated"]
    return {
      features := ← member all "features" room (.optional FeatureSet.decode) none
      packed := ← member all "packed" room (.optional .bool) none
      deprecated := ← member all "deprecated" room .bool false
    }

/-- Reads the options of an enum. -/
def EnumOptions.decode : Decoder EnumOptions
  | 0, _ => none
  | room + 1, document => do
    let all ← document.members? ["features", "allowAlias", "deprecated"]
    return {
      features := ← member all "features" room (.optional FeatureSet.decode) none
      allowAlias := ← member all "allowAlias" room .bool false
      deprecated := ← member all "deprecated" room .bool false
    }

/-! ## Fields, oneofs and enums -/

/-- Reads a field. -/
def FieldDecl.decode : Decoder FieldDecl
  | 0, _ => none
  | room + 1, document => do
    let all ← document.members? ["name", "number", "label", "type", "typeName", "extendee",
      "defaultValue", "oneofIndex", "jsonName", "options", "proto3Optional"]
    return {
      name := ← member all "name" room .text ""
      number := ← member all "number" room .int32 0
      label := ← member all "label" room (.oneOf Label.names) .optional
      type := ← member all "type" room (.oneOf FieldType.names) .int32
      typeName := ← member all "typeName" room (.optional .text) none
      extendee := ← member all "extendee" room (.optional .text) none
      defaultValue := ← member all "defaultValue" room (.optional .text) none
      oneofIndex := ← member all "oneofIndex" room (.optional .int32) none
      jsonName := ← member all "jsonName" room (.optional .text) none
      options := ← member all "options" room (.optional FieldOptions.decode) none
      proto3Optional := ← member all "proto3Optional" room .bool false
    }

/-- Reads a oneof. -/
def OneofDecl.decode : Decoder OneofDecl
  | 0, _ => none
  | room + 1, document => do
    let all ← document.members? ["name", "options"]
    return {
      name := ← member all "name" room .text ""
      options := ← member all "options" room (.optional PlainOptions.decode) none
    }

/-- Reads an enum value. -/
def EnumValueDecl.decode : Decoder EnumValueDecl
  | 0, _ => none
  | room + 1, document => do
    let all ← document.members? ["name", "number", "options"]
    return {
      name := ← member all "name" room .text ""
      number := ← member all "number" room .int32 0
      options := ← member all "options" room (.optional PlainOptions.decode) none
    }

/-- Reads a reserved range. -/
def NumberRange.decode : Decoder NumberRange
  | 0, _ => none
  | room + 1, document => do
    let all ← document.members? ["start", "end"]
    return {
      start := ← member all "start" room .int32 0
      stop := ← member all "end" room .int32 0
    }

/-- Reads an enum. -/
def EnumDecl.decode : Decoder EnumDecl
  | 0, _ => none
  | room + 1, document => do
    let all ← document.members? ["name", "value", "options", "reservedRange", "reservedName"]
    return {
      name := ← member all "name" room .text ""
      value := ← member all "value" room (.list EnumValueDecl.decode) []
      options := ← member all "options" room (.optional EnumOptions.decode) none
      reservedRange := ← member all "reservedRange" room (.list NumberRange.decode) []
      reservedName := ← member all "reservedName" room (.list .text) []
    }

/-! ## Messages -/

/-- Reads a range of extension numbers. -/
def ExtensionRange.decode : Decoder ExtensionRange
  | 0, _ => none
  | room + 1, document => do
    let all ← document.members? ["start", "end", "options"]
    return {
      start := ← member all "start" room .int32 0
      stop := ← member all "end" room .int32 0
      options := ← member all "options" room (.optional PlainOptions.decode) none
    }

/-- Reads a message; each message inside another takes two levels, the list and itself. -/
def MessageDecl.decode (room : Nat) (document : Json) : Option MessageDecl :=
  match room with
  | 0 => none
  | room + 1 => do
    let all ← document.members? ["name", "field", "extension", "nestedType", "enumType",
      "extensionRange", "oneofDecl", "options", "reservedRange", "reservedName"]
    let nestedType ←
      match room, all.lookup "nestedType" with
      | _, none => some []
      | room + 1, some (.array items) => items.mapM (MessageDecl.decode room)
      | _, some _ => none
    return {
      name := ← member all "name" room .text ""
      field := ← member all "field" room (.list FieldDecl.decode) []
      extension := ← member all "extension" room (.list FieldDecl.decode) []
      nestedType
      enumType := ← member all "enumType" room (.list EnumDecl.decode) []
      extensionRange := ← member all "extensionRange" room (.list ExtensionRange.decode) []
      oneofDecl := ← member all "oneofDecl" room (.list OneofDecl.decode) []
      options := ← member all "options" room (.optional MessageOptions.decode) none
      reservedRange := ← member all "reservedRange" room (.list NumberRange.decode) []
      reservedName := ← member all "reservedName" room (.list .text) []
    }

/-! ## Services and files -/

/-- Reads a method. -/
def MethodDecl.decode : Decoder MethodDecl
  | 0, _ => none
  | room + 1, document => do
    let all ← document.members? ["name", "inputType", "outputType", "clientStreaming",
      "serverStreaming", "options"]
    return {
      name := ← member all "name" room .text ""
      inputType := ← member all "inputType" room .text ""
      outputType := ← member all "outputType" room .text ""
      clientStreaming := ← member all "clientStreaming" room .bool false
      serverStreaming := ← member all "serverStreaming" room .bool false
      options := ← member all "options" room (.optional PlainOptions.decode) none
    }

/-- Reads a service. -/
def ServiceDecl.decode : Decoder ServiceDecl
  | 0, _ => none
  | room + 1, document => do
    let all ← document.members? ["name", "method", "options"]
    return {
      name := ← member all "name" room .text ""
      method := ← member all "method" room (.list MethodDecl.decode) []
      options := ← member all "options" room (.optional PlainOptions.decode) none
    }

/-- Reads a file. -/
def FileDecl.decode : Decoder FileDecl
  | 0, _ => none
  | room + 1, document => do
    let all ← document.members? ["name", "package", "dependency", "publicDependency",
      "weakDependency", "messageType", "enumType", "service", "extension", "options", "syntax",
      "edition"]
    return {
      name := ← member all "name" room .text ""
      package := ← member all "package" room .text ""
      dependency := ← member all "dependency" room (.list .text) []
      publicDependency := ← member all "publicDependency" room (.list .int32) []
      weakDependency := ← member all "weakDependency" room (.list .int32) []
      messageType := ← member all "messageType" room (.list MessageDecl.decode) []
      enumType := ← member all "enumType" room (.list EnumDecl.decode) []
      service := ← member all "service" room (.list ServiceDecl.decode) []
      extension := ← member all "extension" room (.list FieldDecl.decode) []
      options := ← member all "options" room (.optional FileOptions.decode) none
      syntaxName := ← member all "syntax" room (.optional .text) none
      edition := ← member all "edition" room (.optional (.oneOf Edition.names)) none
    }

namespace FileSet

/-- Reads a set of files. -/
def decode : Decoder FileSet
  | 0, _ => none
  | room + 1, document => do
    let all ← document.members? ["file"]
    return { file := ← member all "file" room (.list FileDecl.decode) [] }

/-- The files that a document holds. -/
def ofJson (document : Json) : Option FileSet :=
  decode Json.nestingLimit document

/-- The files that a text holds. -/
def ofText (source : String) : Option FileSet :=
  (Json.parse source).bind ofJson

end FileSet

end SchemaLayout
