import SchemaLayout.Declaration.Record
import SchemaLayout.Feature.Document

/-!
# Writing declarations

The JSON form of declarations: every member, with null for what is absent and `[]` for an empty
list. Reading the document gives the declarations back.
-/

namespace SchemaLayout

/-- A value that may be absent. -/
def Json.ofOption {α : Type} (encode : α → Json) (value : Option α) : Json :=
  value.elim .null encode

/-- A list of values. -/
def Json.ofList {α : Type} (encode : α → Json) (values : List α) : Json :=
  .array (values.map encode)

/-- A 32-bit number. -/
def Json.ofInt32 (number : Int32) : Json :=
  .int number.toInt

open Json (ofOption ofList ofInt32)

/-! ## Options -/

/-- Writes plain options. -/
def PlainOptions.encode (options : PlainOptions) : Json :=
  .object [
    ("features", ofOption FeatureSet.encode options.features),
    ("deprecated", .bool options.deprecated)]

/-- Writes the options of a file. -/
def FileOptions.encode (options : FileOptions) : Json :=
  .object [
    ("features", ofOption FeatureSet.encode options.features),
    ("deprecated", .bool options.deprecated)]

/-- Writes the options of a message. -/
def MessageOptions.encode (options : MessageOptions) : Json :=
  .object [
    ("features", ofOption FeatureSet.encode options.features),
    ("mapEntry", .bool options.mapEntry),
    ("deprecated", .bool options.deprecated)]

/-- Writes the options of a field. -/
def FieldOptions.encode (options : FieldOptions) : Json :=
  .object [
    ("features", ofOption FeatureSet.encode options.features),
    ("packed", ofOption .bool options.packed),
    ("deprecated", .bool options.deprecated)]

/-- Writes the options of an enum. -/
def EnumOptions.encode (options : EnumOptions) : Json :=
  .object [
    ("features", ofOption FeatureSet.encode options.features),
    ("allowAlias", .bool options.allowAlias),
    ("deprecated", .bool options.deprecated)]

/-! ## Fields, oneofs and enums -/

/-- Writes a field. -/
def FieldDecl.encode (field : FieldDecl) : Json :=
  .object [
    ("name", .text field.name),
    ("number", ofInt32 field.number),
    ("label", .text field.label.constant),
    ("type", .text field.type.constant),
    ("typeName", ofOption .text field.typeName),
    ("extendee", ofOption .text field.extendee),
    ("defaultValue", ofOption .text field.defaultValue),
    ("oneofIndex", ofOption ofInt32 field.oneofIndex),
    ("jsonName", ofOption .text field.jsonName),
    ("options", ofOption FieldOptions.encode field.options),
    ("proto3Optional", .bool field.proto3Optional)]

/-- Writes a oneof. -/
def OneofDecl.encode (oneof : OneofDecl) : Json :=
  .object [
    ("name", .text oneof.name),
    ("options", ofOption PlainOptions.encode oneof.options)]

/-- Writes an enum value. -/
def EnumValueDecl.encode (value : EnumValueDecl) : Json :=
  .object [
    ("name", .text value.name),
    ("number", ofInt32 value.number),
    ("options", ofOption PlainOptions.encode value.options)]

/-- Writes a reserved range. -/
def NumberRange.encode (range : NumberRange) : Json :=
  .object [("start", ofInt32 range.start), ("end", ofInt32 range.stop)]

/-- Writes an enum. -/
def EnumDecl.encode (enum : EnumDecl) : Json :=
  .object [
    ("name", .text enum.name),
    ("value", ofList EnumValueDecl.encode enum.value),
    ("options", ofOption EnumOptions.encode enum.options),
    ("reservedRange", ofList NumberRange.encode enum.reservedRange),
    ("reservedName", ofList .text enum.reservedName)]

/-! ## Messages -/

/-- Writes a range of extension numbers. -/
def ExtensionRange.encode (range : ExtensionRange) : Json :=
  .object [
    ("start", ofInt32 range.start),
    ("end", ofInt32 range.stop),
    ("options", ofOption PlainOptions.encode range.options)]

mutual

/-- Writes a message. -/
def MessageDecl.encode : MessageDecl → Json
  | ⟨name, field, extension, nestedType, enumType, extensionRange, oneofDecl, options,
      reservedRange, reservedName⟩ =>
    .object [
      ("name", .text name),
      ("field", ofList FieldDecl.encode field),
      ("extension", ofList FieldDecl.encode extension),
      ("nestedType", .array (MessageDecl.encodeAll nestedType)),
      ("enumType", ofList EnumDecl.encode enumType),
      ("extensionRange", ofList ExtensionRange.encode extensionRange),
      ("oneofDecl", ofList OneofDecl.encode oneofDecl),
      ("options", ofOption MessageOptions.encode options),
      ("reservedRange", ofList NumberRange.encode reservedRange),
      ("reservedName", ofList .text reservedName)]

/-- Writes messages. -/
def MessageDecl.encodeAll : List MessageDecl → List Json
  | [] => []
  | message :: rest => message.encode :: MessageDecl.encodeAll rest

end

/-! ## Services and files -/

/-- Writes a method. -/
def MethodDecl.encode (method : MethodDecl) : Json :=
  .object [
    ("name", .text method.name),
    ("inputType", .text method.inputType),
    ("outputType", .text method.outputType),
    ("clientStreaming", .bool method.clientStreaming),
    ("serverStreaming", .bool method.serverStreaming),
    ("options", ofOption PlainOptions.encode method.options)]

/-- Writes a service. -/
def ServiceDecl.encode (service : ServiceDecl) : Json :=
  .object [
    ("name", .text service.name),
    ("method", ofList MethodDecl.encode service.method),
    ("options", ofOption PlainOptions.encode service.options)]

/-- Writes a file. -/
def FileDecl.encode (file : FileDecl) : Json :=
  .object [
    ("name", .text file.name),
    ("package", .text file.package),
    ("dependency", ofList .text file.dependency),
    ("publicDependency", ofList ofInt32 file.publicDependency),
    ("weakDependency", ofList ofInt32 file.weakDependency),
    ("messageType", .array (MessageDecl.encodeAll file.messageType)),
    ("enumType", ofList EnumDecl.encode file.enumType),
    ("service", ofList ServiceDecl.encode file.service),
    ("extension", ofList FieldDecl.encode file.extension),
    ("options", ofOption FileOptions.encode file.options),
    ("syntax", ofOption .text file.syntaxName),
    ("edition", ofOption (.text ·.keyword) file.edition)]

/-- Writes a set of files. -/
def FileSet.encode (set : FileSet) : Json :=
  .object [("file", ofList FileDecl.encode set.file)]

end SchemaLayout
