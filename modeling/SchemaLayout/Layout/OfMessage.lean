import SchemaLayout.Analysis.Initialization
import SchemaLayout.Layout.Placement

/-!
# Layouts of messages

What the layout of a message depends on, taken from a schema: each field in ascending order of number,
and for each message that a field holds whether it needs the check for missing required fields.
-/

namespace SchemaLayout

namespace FieldNode

/-- How many values a field holds, as its layout sees it. That it `isMap` comes first. -/
def cardinality (field : FieldNode) : Cardinality :=
  if field.isMap then .map else if field.isRepeated then .array else .scalar

/-- The mode of a field, as it stands in its record. -/
def mode (field : FieldNode) : FieldMode where
  cardinality := field.cardinality
  isPacked := field.isPacked
  isExtension := field.isExtension

/-- How a field is stored: what holds many values is behind a pointer. -/
def storageKind (field : FieldNode) : StorageKind :=
  if field.isRepeated || field.isMap then .pointer else .ofType field.type

end FieldNode

namespace Schema

/-- The message type that a field refers to, with the answer of `Initialization.needsCheck`. -/
def submessageRef (schema : Schema) (field : FieldNode) :
    StateM Initialization.Memo (Option SubmessageRef) :=
  match field.messageType? with
  | none => return none
  | some target => do
    let needsCheck ← Initialization.needsCheck schema target
    return some { typeName := (schema.message target).fullName, needsCheck }

/-- A field of a message with the given oneofs, as far as `Placement.layout` depends on it. -/
def shape (schema : Schema) (oneofs : List OneofId) (field : FieldNode) :
    StateM Initialization.Memo FieldShape := do
  let submessage ← schema.submessageRef field
  return {
    number := field.number.toUInt32.toNat
    type := field.type
    mode := field.mode
    storageKind := field.storageKind
    isRequired := field.isRequired
    hasPresence := field.hasPresence
    oneofIndex := field.realOneof.bind fun id => oneofs.findIdx? (· = id)
    submessage
  }

/-- The shapes of the fields of a message, in the order of their numbers. -/
def shapes (schema : Schema) (id : MessageId) : StateM Initialization.Memo (List FieldShape) :=
  (schema.fieldsByNumber id).mapM (schema.shape (schema.message id).realOneofs)

/-- The layout of a message: that of its `shapes`. -/
def layout (schema : Schema) (id : MessageId) : StateM Initialization.Memo MessageLayout :=
  return Placement.layout (← schema.shapes id)

end Schema

end SchemaLayout
