import SchemaLayout.NameTable.Program
import SchemaLayout.Schema.Basic

/-!
# Name tables of schemas

The names of a message are those of its fields in ascending order of number, each in the shortest form
that gives its JSON name, too. The names of an enum are those of its values in ascending order of
number; values that share a number share an entry. What is reserved comes last.
-/

namespace SchemaLayout

/-- The entry of a reserved range, to which `range.stop` does not belong. An empty one has none. -/
def NameEntry.ofRange? (range : NumberRange) : Option NameEntry :=
  if range.start < range.stop then some (.reservedNumbers range.start (range.stop - 1)) else none

namespace Schema

/-! ## Messages -/

/-- The entry of a field. One that `isGroupLike` goes by its message's name. -/
def fieldEntry (schema : Schema) (field : FieldNode) : NameEntry :=
  match field.isGroupLike, field.messageType? with
  | true, some target => .group field.number (schema.message target).name
  | _, _ =>
    if field.jsonName = field.name then .same field.number field.name
    else if field.jsonName = Name.json field.name then .standard field.number field.name
    else .unique field.number field.name field.jsonName

/-- The names of a message: its fields in order of number, its reserved names, its reserved ranges. -/
def messageNames (schema : Schema) (id : MessageId) : List NameEntry :=
  (schema.fieldsByNumber id).map schema.fieldEntry
  ++ (schema.message id).reservedNames.map .reservedName
  ++ (schema.message id).reservedRanges.filterMap NameEntry.ofRange?

/-! ## Enums -/

/-- The values of an enum that are `isCanonical`, in ascending order of number. -/
def canonicalValues (schema : Schema) (id : EnumId) : List EnumValueId :=
  ((schema.enum id).values.filter schema.isCanonical).mergeSort fun a b =>
    (schema.value a).number ≤ (schema.value b).number

/-- The entry of a value and of its `aliases`. -/
def valueEntry (schema : Schema) (id : EnumValueId) : NameEntry :=
  let value := schema.value id
  match schema.aliases id with
  | [] => .same value.number value.name
  | aliases => .aliased value.number value.name (aliases.map fun other => (schema.value other).name)

/-- The names of an enum: its `canonicalValues`, its reserved names, its reserved ranges. -/
def enumNames (schema : Schema) (id : EnumId) : List NameEntry :=
  (schema.canonicalValues id).map schema.valueEntry
  ++ (schema.enum id).reservedNames.map .reservedName
  ++ (schema.enum id).reservedRanges.map fun range => .reservedNumbers range.start range.stop

/-! ## Programs -/

/-- The program of `messageNames`. -/
def messageNameProgram (schema : Schema) (id : MessageId) : Program :=
  NameTable.encode (schema.messageNames id)

/-- The program of `enumNames`. -/
def enumNameProgram (schema : Schema) (id : EnumId) : Program :=
  NameTable.encode (schema.enumNames id)

end Schema

end SchemaLayout
