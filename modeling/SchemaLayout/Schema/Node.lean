import SchemaLayout.Declaration.FieldType
import SchemaLayout.Declaration.Record
import SchemaLayout.Feature.Set

/-!
# Nodes

The elements of a schema after its files have been put together. Each kind of element is numbered on its
own, in the order in which its elements were added, and elements refer to each other by these numbers.
Features are resolved, names are full.
-/

namespace SchemaLayout

/-! ## Numbers of elements -/

/-- The number of a file. -/
structure FileId where
  index : Nat
  deriving DecidableEq, Hashable, Inhabited

/-- The number of a message. -/
structure MessageId where
  index : Nat
  deriving DecidableEq, Hashable, Inhabited

/-- The number of a field; extension fields count among the fields. -/
structure FieldId where
  index : Nat
  deriving DecidableEq, Hashable, Inhabited

/-- The number of a oneof. -/
structure OneofId where
  index : Nat
  deriving DecidableEq, Hashable, Inhabited

/-- The number of an enum. -/
structure EnumId where
  index : Nat
  deriving DecidableEq, Hashable, Inhabited

/-- The number of an enum value. -/
structure EnumValueId where
  index : Nat
  deriving DecidableEq, Hashable, Inhabited

/-- The number of a service. -/
structure ServiceId where
  index : Nat
  deriving DecidableEq, Hashable, Inhabited

/-- The number of a method. -/
structure MethodId where
  index : Nat
  deriving DecidableEq, Hashable, Inhabited

/-! ## Files -/

/-- Features of which each is its first choice. -/
instance : Inhabited Features :=
  ⟨{ fieldPresence := default, enumOpenness := default, repeatedEncoding := default
     utf8Validation := default, messageEncoding := default, jsonFormat := default }⟩

/-- A file. Public and weak dependencies are given by their place among the `dependencies`. -/
structure FileNode where
  name : String
  package : String
  edition : Edition
  features : Features
  messages : List MessageId
  enums : List EnumId
  services : List ServiceId
  extensions : List FieldId
  dependencies : List FileId
  publicIndices : List Int32
  weakIndices : List Int32
  deriving DecidableEq, Inhabited

namespace FileNode

/-- The `dependencies` at the given places; places outside the list are skipped. -/
def dependenciesAt (file : FileNode) (places : List Int32) : List FileId :=
  places.filterMap fun place =>
    if place.toInt < 0 then none else file.dependencies[place.toInt.toNat]?

/-- The dependencies that importers of the file import, too. -/
def publicDependencies (file : FileNode) : List FileId :=
  file.dependenciesAt file.publicIndices

/-- The dependencies that may be absent. -/
def weakDependencies (file : FileNode) : List FileId :=
  file.dependenciesAt file.weakIndices

/-- The file is one of `google/protobuf/`, which every schema may import. -/
def isBundled (file : FileNode) : Bool :=
  "google/protobuf/".toList.isPrefixOf file.name.toList

end FileNode

/-! ## Messages -/

/-- A message. Its `oneofs` are those that were written, then those that were made up for a single optional
field. -/
structure MessageNode where
  name : String
  fullName : String
  file : FileId
  containingType : Option MessageId
  features : Features
  fields : List FieldId
  fieldsByNumber : List FieldId
  oneofs : List OneofId
  realOneofCount : Nat
  nestedTypes : List MessageId
  enums : List EnumId
  extensions : List FieldId
  extensionRanges : List NumberRange
  reservedRanges : List NumberRange
  reservedNames : List String
  isMapEntry : Bool
  deriving DecidableEq, Inhabited

namespace MessageNode

/-- The oneofs that were written: the first `realOneofCount`. -/
def realOneofs (message : MessageNode) : List OneofId :=
  message.oneofs.take message.realOneofCount

/-- The key and value fields of a map entry, if there are no others. -/
def mapKeyValue? (message : MessageNode) : Option (FieldId × FieldId) :=
  match message.isMapEntry, message.fields with
  | true, [key, value] => some (key, value)
  | _, _ => none

/-- The message is not nested in another one: it has no `containingType`. -/
def isTopLevel (message : MessageNode) : Bool :=
  message.containingType.isNone

end MessageNode

/-! ## Fields -/

/-- What the type of a field refers to. -/
inductive TypeRef where
  | message (id : MessageId)
  | enum (id : EnumId)
  deriving DecidableEq, Inhabited

/-- A field. Label and type are those that its features make of the declared ones. `realOneof` is its oneof if
that was written and not made up for the field alone. For an extension, `declaredIn` is the message around its
declaration and `containingType` the message that it extends. -/
structure FieldNode where
  name : String
  fullName : String
  number : Int32
  label : Label
  type : FieldType
  jsonName : String
  file : FileId
  features : Features
  isExtension : Bool
  oneof : Option OneofId
  realOneof : Option OneofId
  proto3Optional : Bool
  defaultValue : Option String
  declaredIn : Option MessageId
  containingType : Option MessageId
  target : Option TypeRef
  isMap : Bool
  isGroupLike : Bool
  deriving DecidableEq, Inhabited

namespace FieldNode

/-- The message around the declaration of an extension, its `declaredIn`. -/
def extensionScope (field : FieldNode) : Option MessageId :=
  if field.isExtension then field.declaredIn else none

/-- The message that the values of the field are, if its `target` is one. -/
def messageType? (field : FieldNode) : Option MessageId :=
  match field.target with
  | some (.message id) => some id
  | _ => none

/-- The field holds many values, by its `label`. -/
def isRepeated (field : FieldNode) : Bool :=
  field.label = .repeated

/-- The field must be set, by the feature `fieldPresence`. -/
def isRequired (field : FieldNode) : Bool :=
  field.features.fieldPresence = .legacyRequired

/-- The field tracks whether it is set, whatever its value. -/
def hasPresence (field : FieldNode) : Bool :=
  if field.isRepeated then false
  else if field.type.isMessageLike then true
  else field.isExtension || field.oneof.isSome || field.features.fieldPresence ≠ .implicit

/-- The values of the field can be written in one run: it is repeated, and `FieldType.isPackable`. -/
def isPackable (field : FieldNode) : Bool :=
  field.isRepeated && field.type.isPackable

/-- The values of the field are written in one run, by the feature `repeatedEncoding`. -/
def isPacked (field : FieldNode) : Bool :=
  field.isPackable && field.features.repeatedEncoding = .packed

end FieldNode

/-! ## Oneofs and enums -/

/-- A oneof. It is synthetic if it was made up for a single optional field. -/
structure OneofNode where
  name : String
  fullName : String
  containingType : MessageId
  features : Features
  fields : List FieldId
  isSynthetic : Bool
  deriving DecidableEq, Inhabited

/-- An enum. -/
structure EnumNode where
  name : String
  fullName : String
  file : FileId
  containingType : Option MessageId
  features : Features
  values : List EnumValueId
  reservedRanges : List NumberRange
  reservedNames : List String
  allowAlias : Bool
  deriving DecidableEq, Inhabited

namespace EnumNode

/-- The enum admits only the numbers that it declares, by the feature `enumOpenness`. -/
def isClosed (enum : EnumNode) : Bool :=
  enum.features.enumOpenness = .closed

/-- The value of a field that is not set: the first one. -/
def defaultValue? (enum : EnumNode) : Option EnumValueId :=
  enum.values.head?

end EnumNode

/-- A value of an enum. Its full name is that of a sibling of the enum. -/
structure EnumValueNode where
  name : String
  fullName : String
  number : Int32
  enum : EnumId
  features : Features
  deriving DecidableEq, Inhabited

/-! ## Services -/

/-- A service. -/
structure ServiceNode where
  name : String
  fullName : String
  file : FileId
  features : Features
  methods : List MethodId
  deriving DecidableEq, Inhabited

/-- A method of a service. -/
structure MethodNode where
  name : String
  fullName : String
  service : ServiceId
  features : Features
  clientStreaming : Bool
  serverStreaming : Bool
  inputType : MessageId
  outputType : MessageId
  deriving DecidableEq, Inhabited

end SchemaLayout
