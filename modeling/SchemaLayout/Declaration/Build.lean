import SchemaLayout.Declaration.Record

/-!
# Building declarations

Declarations made step by step: each function returns the declaration with one part added or set.
-/

namespace SchemaLayout

namespace FileDecl

/-- Sets the syntax. -/
def withSyntax (file : FileDecl) (name : String) : FileDecl :=
  { file with syntaxName := some name }

/-- Sets the edition, and the syntax that makes it count. -/
def withEdition (file : FileDecl) (edition : Edition) : FileDecl :=
  { file with syntaxName := some "editions", edition := some edition }

/-- Adds an import. -/
def withDependency (file : FileDecl) (name : String) : FileDecl :=
  { file with dependency := file.dependency ++ [name] }

/-- Adds a message. -/
def withMessage (file : FileDecl) (message : MessageDecl) : FileDecl :=
  { file with messageType := file.messageType ++ [message] }

/-- Adds an enum. -/
def withEnum (file : FileDecl) (enum : EnumDecl) : FileDecl :=
  { file with enumType := file.enumType ++ [enum] }

/-- Adds a service. -/
def withService (file : FileDecl) (service : ServiceDecl) : FileDecl :=
  { file with service := file.service ++ [service] }

/-- Adds an extension field. -/
def withExtension (file : FileDecl) (field : FieldDecl) : FileDecl :=
  { file with extension := file.extension ++ [field] }

end FileDecl

namespace MessageDecl

/-- Adds a field. -/
def withField (message : MessageDecl) (field : FieldDecl) : MessageDecl :=
  { message with field := message.field ++ [field] }

/-- Adds a oneof without options. -/
def withOneof (message : MessageDecl) (name : String) : MessageDecl :=
  { message with oneofDecl := message.oneofDecl ++ [{ name }] }

/-- Adds a nested message. -/
def withNested (message nested : MessageDecl) : MessageDecl :=
  { message with nestedType := message.nestedType ++ [nested] }

/-- Adds an enum. -/
def withEnum (message : MessageDecl) (enum : EnumDecl) : MessageDecl :=
  { message with enumType := message.enumType ++ [enum] }

/-- Adds an extension field. -/
def withExtension (message : MessageDecl) (field : FieldDecl) : MessageDecl :=
  { message with extension := message.extension ++ [field] }

/-- Adds a range of numbers for extensions. -/
def withExtensionRange (message : MessageDecl) (start stop : Int32) : MessageDecl :=
  { message with extensionRange := message.extensionRange ++ [{ start, stop }] }

/-- Reserves a range of numbers. -/
def withReservedRange (message : MessageDecl) (start stop : Int32) : MessageDecl :=
  { message with reservedRange := message.reservedRange ++ [{ start, stop }] }

/-- Reserves a name. -/
def withReservedName (message : MessageDecl) (name : String) : MessageDecl :=
  { message with reservedName := message.reservedName ++ [name] }

/-- Marks the message as a map entry and keeps its other options. -/
def asMapEntry (message : MessageDecl) : MessageDecl :=
  { message with options := some { message.options.getD {} with mapEntry := true } }

end MessageDecl

namespace FieldDecl

/-- Sets the label. -/
def withLabel (field : FieldDecl) (label : Label) : FieldDecl :=
  { field with label }

/-- Sets the name of the field's type. -/
def withTypeName (field : FieldDecl) (name : String) : FieldDecl :=
  { field with typeName := some name }

/-- Sets the message that the field extends. -/
def withExtendee (field : FieldDecl) (name : String) : FieldDecl :=
  { field with extendee := some name }

/-- Puts the field into a oneof of its message. -/
def inOneof (field : FieldDecl) (index : Int32) : FieldDecl :=
  { field with oneofIndex := some index }

/-- Makes the field the one member of a oneof that only tracks whether it is set. -/
def asOptional (field : FieldDecl) (index : Int32) : FieldDecl :=
  { field with proto3Optional := true, oneofIndex := some index }

/-- Sets the JSON name. -/
def withJsonName (field : FieldDecl) (name : String) : FieldDecl :=
  { field with jsonName := some name }

/-- Sets the default value. -/
def withDefault (field : FieldDecl) (value : String) : FieldDecl :=
  { field with defaultValue := some value }

/-- Sets the option that asks for packing and keeps the others. -/
def withPacked (field : FieldDecl) (packed : Bool) : FieldDecl :=
  { field with options := some { field.options.getD {} with packed := some packed } }

/-- Sets the features and keeps the other options. -/
def withFeatures (field : FieldDecl) (features : FeatureSet) : FieldDecl :=
  { field with options := some { field.options.getD {} with features := some features } }

end FieldDecl

namespace EnumDecl

/-- Adds a value. -/
def withValue (enum : EnumDecl) (name : String) (number : Int32) : EnumDecl :=
  { enum with value := enum.value ++ [{ name, number }] }

/-- Reserves a range of numbers. -/
def withReservedRange (enum : EnumDecl) (start stop : Int32) : EnumDecl :=
  { enum with reservedRange := enum.reservedRange ++ [{ start, stop }] }

/-- Reserves a name. -/
def withReservedName (enum : EnumDecl) (name : String) : EnumDecl :=
  { enum with reservedName := enum.reservedName ++ [name] }

/-- Sets the features and keeps the other options. -/
def withFeatures (enum : EnumDecl) (features : FeatureSet) : EnumDecl :=
  { enum with options := some { enum.options.getD {} with features := some features } }

end EnumDecl

namespace ServiceDecl

/-- Adds a method that streams in neither direction. -/
def withMethod (service : ServiceDecl) (name inputType outputType : String) : ServiceDecl :=
  { service with method := service.method ++ [{ name, inputType, outputType }] }

end ServiceDecl

end SchemaLayout
