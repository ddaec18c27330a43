import SchemaLayout.Schema.Basic
import Std.Data.HashSet

/-!
# Initialization

Whether values of a message type can lack a required field, here or in any message inside them. They can
if the message admits extensions, if it has a required field, or if it holds messages that can. Types
may refer to each other in circles, so a walk visits each type once.
-/

namespace SchemaLayout.Initialization

/-- The messages that a walk has visited. -/
abbrev Visited := Std.HashSet MessageId

/-- The first of some fields that is required, or whose message needs the check by `visit`, decides. -/
def anyField (visit : MessageId → StateM Visited Bool) : List FieldNode → StateM Visited Bool
  | [] => return false
  | field :: rest => do
    if field.isRequired then return true
    match field.messageType? with
    | some target => if ← visit target then return true else anyField visit rest
    | none => anyField visit rest

/-- Walks the messages reachable from one, `depth` steps far at most. A message that was visited before
adds nothing. -/
def walk (schema : Schema) : (depth : Nat) → MessageId → StateM Visited Bool
  | 0, _ => return false
  | depth + 1, id => do
    if (← get).contains id then return false
    modify (·.insert id)
    if (schema.message id).extensionRanges ≠ [] then return true
    anyField (walk schema depth) (schema.fieldsOf id)

/-- Steps enough for any `walk`: no path without circles is longer than there are messages. -/
def depthLimit (schema : Schema) : Nat :=
  schema.messages.size + 1

/-- The answers of `needsCheck` to what was asked before. -/
abbrev Memo := Std.HashMap MessageId Bool

/-- Values of a message must be checked for missing required fields: the answer in the memo, or that of a
`walk`. -/
def needsCheck (schema : Schema) (id : MessageId) : StateM Memo Bool := do
  if let some known := (← get)[id]? then return known
  let needed := ((walk schema (depthLimit schema) id).run ∅).1
  modify (·.insert id needed)
  return needed

end SchemaLayout.Initialization
