import SchemaLayout.Name
import SchemaLayout.Schema.Directory
import SchemaLayout.Schema.Fault

/-!
# Schemas

The elements of all files that were put together, kind by kind, and the names of those that have one.
-/

namespace SchemaLayout

/-- The message that a field belongs to, its `containingType`. An extension that does not say what it extends
has none. -/
def FieldNode.owner (field : FieldNode) : Except Fault MessageId :=
  field.containingType.elim (throw (.noContainingType field.fullName)) pure

/-- Elements by their numbers, and the `directory` of the names they go by. -/
structure Schema where
  files : Array FileNode := #[]
  messages : Array MessageNode := #[]
  fields : Array FieldNode := #[]
  oneofs : Array OneofNode := #[]
  enums : Array EnumNode := #[]
  values : Array EnumValueNode := #[]
  services : Array ServiceNode := #[]
  methods : Array MethodNode := #[]
  directory : Directory := .empty
  deriving Inhabited

namespace Schema

/-- The schema without files. -/
def empty : Schema := {}

/-! ## Elements -/

/-- The file of a number, or `default` if the schema has none of it. -/
def file (schema : Schema) (id : FileId) : FileNode :=
  schema.files[id.index]?.getD default

/-- The message of a number. -/
def message (schema : Schema) (id : MessageId) : MessageNode :=
  schema.messages[id.index]?.getD default

/-- The field of a number. -/
def field (schema : Schema) (id : FieldId) : FieldNode :=
  schema.fields[id.index]?.getD default

/-- The oneof of a number. -/
def oneof (schema : Schema) (id : OneofId) : OneofNode :=
  schema.oneofs[id.index]?.getD default

/-- The enum of a number. -/
def enum (schema : Schema) (id : EnumId) : EnumNode :=
  schema.enums[id.index]?.getD default

/-- The enum value of a number. -/
def value (schema : Schema) (id : EnumValueId) : EnumValueNode :=
  schema.values[id.index]?.getD default

/-- The service of a number. -/
def service (schema : Schema) (id : ServiceId) : ServiceNode :=
  schema.services[id.index]?.getD default

/-- The method of a number. -/
def method (schema : Schema) (id : MethodId) : MethodNode :=
  schema.methods[id.index]?.getD default

/-- The numbers of all files. -/
def fileIds (schema : Schema) : List FileId :=
  (List.range schema.files.size).map .mk

/-- The numbers of all messages. A message comes before those nested in it. -/
def messageIds (schema : Schema) : List MessageId :=
  (List.range schema.messages.size).map .mk

/-- The numbers of all enums. -/
def enumIds (schema : Schema) : List EnumId :=
  (List.range schema.enums.size).map .mk

/-- The `fields` of a message in the order of their declarations. -/
def fieldsOf (schema : Schema) (id : MessageId) : List FieldNode :=
  (schema.message id).fields.map schema.field

/-- The fields of a message in ascending order of `number`. -/
def fieldsByNumber (schema : Schema) (id : MessageId) : List FieldNode :=
  (schema.message id).fieldsByNumber.map schema.field

/-- The oneof of a field, if it is not one with `isSynthetic`. -/
def realOneof? (schema : Schema) (field : FieldNode) : Option OneofId :=
  field.oneof.filter fun id => !(schema.oneof id).isSynthetic

/-! ## Names -/

/-- The file of `name`. -/
def findFile? (schema : Schema) (name : String) : Option FileId :=
  schema.directory.file? name

/-- The message that a reference means, by `Name.keyOf`. -/
def findMessage? (schema : Schema) (reference : String) : Option MessageId :=
  schema.directory.message? (Name.keyOf reference)

/-- The enum that a reference means, by `Name.keyOf`. -/
def findEnum? (schema : Schema) (reference : String) : Option EnumId :=
  schema.directory.enum? (Name.keyOf reference)

/-- The service that a reference means, by `Name.keyOf`. -/
def findService? (schema : Schema) (reference : String) : Option ServiceId :=
  schema.directory.service? (Name.keyOf reference)

/-! ## Values of enums -/

/-- The first value of `enum` with `number`. -/
def valueWithNumber? (schema : Schema) (enum : EnumId) (number : Int32) : Option EnumValueId :=
  (schema.enum enum).values.find? fun id => (schema.value id).number = number

/-- The value is `valueWithNumber?` of its own number. -/
def isCanonical (schema : Schema) (id : EnumValueId) : Bool :=
  schema.valueWithNumber? (schema.value id).enum (schema.value id).number = some id

/-- The other values with the number of a value, if that `isCanonical`. -/
def aliases (schema : Schema) (id : EnumValueId) : List EnumValueId :=
  if schema.isCanonical id then
    (schema.enum (schema.value id).enum).values.filter fun other =>
      other ≠ id && (schema.value other).number = (schema.value id).number
  else []

end Schema

end SchemaLayout
