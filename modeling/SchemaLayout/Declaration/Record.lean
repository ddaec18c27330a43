import SchemaLayout.Edition
import SchemaLayout.Feature.Set
import SchemaLayout.Declaration.FieldType

/-!
# Declarations

What a schema file declares, as it stands in a document: messages with their fields and oneofs,
enums with their values, services with their methods. References to types are still names. Every
member has a default, so a document may leave it out.
-/

namespace SchemaLayout

/-! ## Options -/

/-- The options of a oneof, an enum value, a service, a method or an extension range. -/
structure PlainOptions where
  features : Option FeatureSet := none
  deprecated : Bool := false
  deriving DecidableEq, Inhabited

/-- The options of a file. -/
structure FileOptions where
  features : Option FeatureSet := none
  deprecated : Bool := false
  deriving DecidableEq, Inhabited

/-- The options of a message. A map entry is the pair of key and value of a map field. -/
structure MessageOptions where
  features : Option FeatureSet := none
  mapEntry : Bool := false
  deprecated : Bool := false
  deriving DecidableEq, Inhabited

/-- The options of a field. -/
structure FieldOptions where
  features : Option FeatureSet := none
  packed : Option Bool := none
  deprecated : Bool := false
  deriving DecidableEq, Inhabited

/-- The options of an enum. -/
structure EnumOptions where
  features : Option FeatureSet := none
  allowAlias : Bool := false
  deprecated : Bool := false
  deriving DecidableEq, Inhabited

/-! ## Fields and oneofs -/

/-- A field of a message, or an extension field. -/
structure FieldDecl where
  name : String := ""
  number : Int32 := 0
  label : Label := .optional
  type : FieldType := .int32
  typeName : Option String := none
  extendee : Option String := none
  defaultValue : Option String := none
  oneofIndex : Option Int32 := none
  jsonName : Option String := none
  options : Option FieldOptions := none
  proto3Optional : Bool := false
  deriving DecidableEq, Inhabited

/-- A oneof: a set of fields of which at most one is set. -/
structure OneofDecl where
  name : String := ""
  options : Option PlainOptions := none
  deriving DecidableEq, Inhabited

/-! ## Enums -/

/-- A named number of an enum. -/
structure EnumValueDecl where
  name : String := ""
  number : Int32 := 0
  options : Option PlainOptions := none
  deriving DecidableEq, Inhabited

/-- Two numbers that bound a range; whether the end belongs to it depends on what the range is of. -/
structure NumberRange where
  start : Int32 := 0
  stop : Int32 := 0
  deriving DecidableEq, Inhabited

/-- An enum. The ends of its reserved ranges belong to them. -/
structure EnumDecl where
  name : String := ""
  value : List EnumValueDecl := []
  options : Option EnumOptions := none
  reservedRange : List NumberRange := []
  reservedName : List String := []
  deriving DecidableEq, Inhabited

/-! ## Messages -/

/-- Numbers that a message leaves to extensions; the end does not belong to the range. -/
structure ExtensionRange where
  start : Int32 := 0
  stop : Int32 := 0
  options : Option PlainOptions := none
  deriving DecidableEq, Inhabited

/-- A message. The ends of its reserved ranges do not belong to them. -/
structure MessageDecl where
  name : String := ""
  field : List FieldDecl := []
  extension : List FieldDecl := []
  nestedType : List MessageDecl := []
  enumType : List EnumDecl := []
  extensionRange : List ExtensionRange := []
  oneofDecl : List OneofDecl := []
  options : Option MessageOptions := none
  reservedRange : List NumberRange := []
  reservedName : List String := []
  deriving Inhabited

/-! ## Services -/

/-- A method of a service. -/
structure MethodDecl where
  name : String := ""
  inputType : String := ""
  outputType : String := ""
  clientStreaming : Bool := false
  serverStreaming : Bool := false
  options : Option PlainOptions := none
  deriving DecidableEq, Inhabited

/-- A service. -/
structure ServiceDecl where
  name : String := ""
  method : List MethodDecl := []
  options : Option PlainOptions := none
  deriving DecidableEq, Inhabited

/-! ## Files -/

/-- A schema file. Public and weak dependencies are given by their place among the dependencies. -/
structure FileDecl where
  name : String := ""
  package : String := ""
  dependency : List String := []
  publicDependency : List Int32 := []
  weakDependency : List Int32 := []
  messageType : List MessageDecl := []
  enumType : List EnumDecl := []
  service : List ServiceDecl := []
  extension : List FieldDecl := []
  options : Option FileOptions := none
  syntaxName : Option String := none
  edition : Option Edition := none
  deriving Inhabited

/-- The edition that a file is in. -/
def FileDecl.level (file : FileDecl) : Edition :=
  Edition.ofSyntax file.syntaxName file.edition

/-- The message is the entry of a map field. -/
def MessageDecl.isMapEntry (message : MessageDecl) : Bool :=
  message.options.any (·.mapEntry)

/-- The files of one document, every file after those it imports. -/
structure FileSet where
  file : List FileDecl := []
  deriving Inhabited

end SchemaLayout
