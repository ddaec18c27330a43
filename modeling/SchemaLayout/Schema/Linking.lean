import SchemaLayout.Schema.Additions
import SchemaLayout.Text.Lowercase

/-!
# Linking

When all names of a file are entered, its references are looked up: imports, what extensions extend,
the types of fields, and the types of methods. Only what was added so far can be found: the files before
this one and the file itself.
-/

namespace SchemaLayout.Linking

/-- The names that are known, and the `messages` that they stand for. -/
structure Context where
  directory : Directory
  messages : Array MessageNode

namespace Context

/-- The message of a number. -/
def message (context : Context) (id : MessageId) : MessageNode :=
  context.messages[id.index]?.getD default

/-- The message that `owner` refers to. -/
def findMessage (context : Context) (owner reference : String) : Except Fault MessageId :=
  (context.directory.message? (Name.keyOf reference)).elim
    (throw (.unknownMessage owner reference)) pure

/-- The enum that `owner` refers to. -/
def findEnum (context : Context) (owner reference : String) : Except Fault EnumId :=
  (context.directory.enum? (Name.keyOf reference)).elim
    (throw (.unknownEnum owner reference)) pure

end Context

/-! ## Fields -/

/-- The name of the type that a field of type message, group or enum has to name. -/
def typeName (draft : FieldDraft) : Except Fault String :=
  draft.typeName.elim (throw (.missingTypeName draft.node.fullName)) pure

/-- The message that a field belongs to. -/
def containingType (context : Context) (draft : FieldDraft) : Except Fault (Option MessageId) :=
  match draft.extendee with
  | some extendee => return some (← context.findMessage draft.node.fullName extendee)
  | none => return draft.node.containingType

/-- What the type of a field refers to: an enum or a message, by `typeName`. -/
def target (context : Context) (draft : FieldDraft) : Except Fault (Option TypeRef) := do
  if draft.node.type = .enum then
    return some (.enum (← context.findEnum draft.node.fullName (← typeName draft)))
  else if draft.node.type.isMessageLike then
    return some (.message (← context.findMessage draft.node.fullName (← typeName draft)))
  else
    return none

/-- The type of a field in the message `container`. Map entries are never groups, nor are their values. -/
def linkedType (context : Context) (container : Option MessageId) (target : Option TypeRef)
    (type : FieldType) : FieldType :=
  match type, target with
  | .group, some (.message id) =>
    if (context.message id).isMapEntry || container.any fun id => (context.message id).isMapEntry
    then .message else .group
  | type, _ => type

/-- The field holds the entries of a map: its `target` is a map entry, whatever its label. -/
def isMap (context : Context) (type : FieldType) (target : Option TypeRef) : Bool :=
  match type, target with
  | .message, some (.message id) => (context.message id).isMapEntry
  | _, _ => false

/-- The field is a `.group` that was declared together with its message: the field has the message's name in
lower case, and both stand in the same place. -/
def isGroupLike (context : Context) (field : FieldNode) : Bool :=
  match field.type, field.target with
  | .group, some (.message id) =>
    let message := context.message id
    field.name = lowercase message.name &&
      if field.isExtension then
        match field.declaredIn with
        | some scope => message.containingType = some scope
        | none => message.file = field.file && message.isTopLevel
      else message.containingType = field.containingType
  | _, _ => false

/-- The node of a field that belongs to `container` and refers to `target`, with what follows from both. -/
def linked (context : Context) (node : FieldNode) (container : Option MessageId) (target : Option TypeRef) :
    FieldNode :=
  let type := linkedType context container target node.type
  let node := {
    node with
    type, containingType := container, target, isMap := isMap context type target
  }
  { node with isGroupLike := isGroupLike context node }

/-- Links a field, once its `containingType` and its `target` are found. -/
def field (context : Context) (draft : FieldDraft) : Except Fault FieldNode := do
  let container ← containingType context draft
  let target ← target context draft
  return linked context draft.node container target

/-! ## Methods and imports -/

/-- Links a method. -/
def method (context : Context) (draft : MethodDraft) : Except Fault MethodNode := do
  let inputType ← context.findMessage draft.fullName draft.inputName
  let outputType ← context.findMessage draft.fullName draft.outputName
  return {
    name := draft.name
    fullName := draft.fullName
    service := draft.service
    features := draft.features
    clientStreaming := draft.clientStreaming
    serverStreaming := draft.serverStreaming
    inputType
    outputType
  }

/-- The files that `decl` imports. -/
def dependencies (directory : Directory) (decl : FileDecl) : Except Fault (List FileId) :=
  decl.dependency.mapM fun name =>
    (directory.file? name).elim (throw (.unknownImport decl.name name)) pure

end SchemaLayout.Linking
