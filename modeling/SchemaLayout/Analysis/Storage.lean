import SchemaLayout.Schema.Basic
import Std.Data.HashSet

/-!
# Storage

Whether a message is stored inside the message that holds it, or out of line behind a pointer. A message
costs as much as its fields together, where a oneof costs as much as the dearest of its members. A field
costs one, unless it holds a single message that is stored inside: then it costs what that message does.
Messages whose cost reaches the threshold are stored out of line, and so are those that would otherwise
contain themselves, and values of any type.

Decisions are recorded as they are made, and no message is decided twice.
-/

namespace SchemaLayout.Storage

/-- The message that holds a value of any type. -/
def anyName : String := "google.protobuf.Any"

/-- How a message is stored, and what a field that holds one costs. -/
structure Decision where
  isOutOfLine : Bool
  fieldCost : Nat
  deriving DecidableEq, Inhabited

namespace Decision

/-- The decision for messages behind a pointer, whose cost is `1`. -/
def outOfLine : Decision :=
  ⟨true, 1⟩

/-- The decision for a message of a cost: out of line from `threshold` on. -/
def ofCost (threshold cost : Nat) : Decision :=
  if threshold ≤ cost then outOfLine else ⟨false, cost⟩

end Decision

/-! ## Circles -/

/-- The messages that a message would contain, as far as they are of `file`: the types of its fields that are
not repeated. -/
def containedIn (schema : Schema) (file : FileId) (id : MessageId) : List MessageId :=
  (schema.fieldsOf id).filterMap fun field =>
    if field.isRepeated then none
    else field.messageType?.filter fun target => (schema.message target).file = file

/-- A search for circles: the messages that were `visited`, and the `members` of the circles found. -/
structure Search where
  visited : Std.HashSet MessageId := ∅
  members : Std.HashSet MessageId := ∅

/-- Searches on from a message, `depth` steps far at most. `path` leads to it from the start, the last
step first; a message that is on the path closes a circle with all that come after it. -/
def search (schema : Schema) (file : FileId) :
    (depth : Nat) → (path : List MessageId) → Search → MessageId → Search
  | 0, _, state, _ => state
  | depth + 1, path, state, id =>
    if id ∈ path then
      let circle := id :: path.takeWhile (· ≠ id)
      { state with members := circle.foldl (·.insert ·) state.members }
    else if state.visited.contains id then state
    else
      (containedIn schema file id).foldl (search schema file depth (id :: path))
        { state with visited := state.visited.insert id }

/-- The `members` found by a search from `start` in its file. -/
def circleMembers (schema : Schema) (start : MessageId) : Std.HashSet MessageId :=
  (search schema (schema.message start).file (schema.messages.size + 1) [] {} start).members

/-! ## Costs -/

/-- The largest cost that is told apart, `2 ^ 32 - 1`. -/
def maxCost : Nat := 0xFFFFFFFF

/-- The sum of two costs, up to `maxCost`. -/
def addCosts (a b : Nat) : Nat :=
  min (a + b) maxCost

/-- The fields of a message in groups of which each costs as much as its dearest member: every field
outside of oneofs alone, then the members of each oneof. -/
def costGroups (schema : Schema) (id : MessageId) : List (List FieldNode) :=
  ((schema.fieldsByNumber id).filter (·.realOneof.isNone)).map ([·])
  ++ (schema.message id).realOneofs.map fun oneof => (schema.oneof oneof).fields.map schema.field

/-- What is decided already, by the `fullName` of the messages. -/
abbrev Memo := Std.HashMap String Decision

/-- Decides with a `Memo` at hand; without a result if the depth allowed does not suffice. -/
abbrev Deciding := StateT Memo Option

/-- Records a decision and returns it. -/
def record (schema : Schema) (id : MessageId) (decision : Decision) : Deciding Decision := do
  modify (·.insert (schema.message id).fullName decision)
  return decision

/-- The cost of a field, where `decide` decides on the messages it holds. -/
def fieldCost (decide : MessageId → Deciding Decision) (field : FieldNode) : Deciding Nat :=
  match field.isRepeated, field.messageType? with
  | false, some target => return (← decide target).fieldCost
  | _, _ => return 1

/-- The largest `cost` of any field. -/
def groupCost (cost : FieldNode → Deciding Nat) : List FieldNode → Deciding Nat
  | [] => return 0
  | field :: rest => do
    let first ← cost field
    let others ← groupCost cost rest
    return max first others

/-- The sum of `groupCost` over some groups, as far as it takes to reach `threshold`. -/
def sumCosts (threshold : Nat) (cost : FieldNode → Deciding Nat) :
    (groups : List (List FieldNode)) → (sum : Nat) → Deciding Nat
  | [], sum => return sum
  | group :: rest, sum => do
    let sum := addCosts sum (← groupCost cost group)
    if threshold ≤ sum then return sum else sumCosts threshold cost rest sum

/-! ## Decisions -/

/-- Records the messages that `circleMembers` finds as out of line. The answer is whether `start` is one of
them. -/
def markCircles (schema : Schema) (start : MessageId) : Deciding Bool := do
  let members := circleMembers schema start
  members.toList.forM fun member => discard (record schema member .outOfLine)
  return members.contains start

/-- Decides on a message, where `next` decides on the messages that it holds. -/
def decideStep (schema : Schema) (threshold : Nat) (next : MessageId → Deciding Decision)
    (id : MessageId) : Deciding Decision := do
  if let some decision := (← get)[(schema.message id).fullName]? then return decision
  if (schema.message id).fullName = anyName then return ← record schema id .outOfLine
  if ← markCircles schema id then return .outOfLine
  let cost ← sumCosts threshold (fieldCost next) (costGroups schema id) 0
  record schema id (.ofCost threshold cost)

/-- Decides on a message and on those inside it, `depth` steps far at most. -/
def decideWithin (schema : Schema) (threshold : Nat) : (depth : Nat) → MessageId → Deciding Decision
  | 0, _ => failure
  | depth + 1, id => decideStep schema threshold (decideWithin schema threshold depth) id

/-- Decides on a message with `decideWithin`. Messages contain each other no deeper than there are messages. -/
def decide (schema : Schema) (threshold : Nat) (id : MessageId) : StateM Memo Decision := fun memo =>
  ((decideWithin schema threshold (schema.messages.size + 1) id).run memo).getD (.outOfLine, memo)

end SchemaLayout.Storage
