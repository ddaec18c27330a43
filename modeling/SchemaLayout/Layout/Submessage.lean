import SchemaLayout.Data.OrderedMap

/-!
# Submessage tables

The message types that the fields of a layout refer to. A type gets its index when it is first met; the
indices count from one, so that zero can stand for a field that holds no message, and the last one of
16 bits is shared by all types from there on.
-/

namespace SchemaLayout

/-- A message type that a field refers to. With `needsCheck`, its values must be checked for missing required
fields. -/
structure SubmessageRef where
  typeName : String
  needsCheck : Bool
  deriving DecidableEq, Inhabited

/-- What a table says of one type, with the `fieldNumbers` of the fields that refer to it. -/
structure Submessage where
  typeName : String
  index : Nat
  needsCheck : Bool
  fieldNumbers : Array Nat := #[]
  deriving DecidableEq, Inhabited

/-- The submessages of a layout by `typeName`, in the order of their indices. -/
abbrev SubmessageTable := OrderedMap Submessage

namespace SubmessageTable

/-- The largest index, `2 ^ 16 - 1`. -/
def maxIndex : Nat := 0xFFFF

/-- Notes that the field `number` refers to a type. -/
def collect (table : SubmessageTable) (ref : SubmessageRef) (number : Nat) : SubmessageTable :=
  let next := min (table.size + 1) maxIndex
  table.update ref.typeName fun
    | some known => { known with fieldNumbers := known.fieldNumbers.push number }
    | none => {
        typeName := ref.typeName, index := next, needsCheck := ref.needsCheck
        fieldNumbers := #[number]
      }

/-- The index of a type. -/
def index? (table : SubmessageTable) (typeName : String) : Option Nat :=
  (table.find? typeName).map (·.index)

end SubmessageTable

end SchemaLayout
