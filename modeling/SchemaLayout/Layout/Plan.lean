import SchemaLayout.Layout.Record

/-!
# Layout plans

The layout of one message for one pointer width: how large it is, how its has-bits are used, and a
record for each of its fields in ascending order of number. Its program is a header of 16 units,

  version (1), size (3), fields (3), required (3), explicit presence (3), dense below (3),

and then the records. Reading a program takes it to its end.
-/

namespace SchemaLayout

/-- The layout of a message. Every field number from one to below `denseBelow` is in use, so those
records can be found by their place. -/
structure LayoutPlan where
  size : Nat := 0
  requiredCount : Nat := 0
  explicitCount : Nat := 0
  denseBelow : Nat := 0
  records : List FieldRecord := []
  deriving DecidableEq, Inhabited

namespace LayoutPlan

/-- The bytes that hold one bit for each of the `records`. -/
def hasBitBytes (plan : LayoutPlan) : Nat :=
  (plan.records.length + 7) / 8

/-! ## Lookup -/

/-- The place among `size` records from `start` on where `number` is if it is there: the half that
starts at or before it is searched further. -/
def searchFrom (records : Array FieldRecord) (number start size : Nat) : Nat :=
  if size ≤ 1 then start
  else
    let middle := start + size / 2
    let start := if (records[middle]?.any (number < ·.number)) then start else middle
    searchFrom records number start (size - size / 2)
termination_by size
decreasing_by omega

/-- The record of `number`, by `searchFrom` over all records. -/
def find? (plan : LayoutPlan) (number : Nat) : Option FieldRecord :=
  let records := plan.records.toArray
  records[searchFrom records number 0 records.size]?.filter (·.number = number)

/-! ## Programs -/

open Program

/-- The version of the programs that `encode` writes. -/
def version : Nat := 0

/-- Writes the header of a plan, if its numbers fit: the `version`, the size, how many records follow, and the
counts. -/
def writeHeader (plan : LayoutPlan) : Except ProgramError Program := do
  let version ← writeFixed 1 version
  let size ← writeFixed 3 plan.size
  let fields ← writeFixed 3 plan.records.length
  let required ← writeFixed 3 plan.requiredCount
  let explicit ← writeFixed 3 plan.explicitCount
  let dense ← writeFixed 3 plan.denseBelow
  return version ++ size ++ fields ++ required ++ explicit ++ dense

/-- The program of a plan: its header, then every record. -/
def encode (plan : LayoutPlan) : Except ProgramError Program := do
  let header ← plan.writeHeader
  let records ← plan.records.mapM (·.write)
  return header ++ records.flatten

/-- Reads a header: the plan without its `records`, and how many of them follow. -/
def readHeader : Reader (LayoutPlan × Nat) := do
  let found ← readFixed 1
  if found ≠ version then throw (.unsupportedLayoutVersion found)
  let size ← readFixed 3
  let fields ← readFixed 3
  let requiredCount ← readFixed 3
  let explicitCount ← readFixed 3
  let denseBelow ← readFixed 3
  return ({ size, requiredCount, explicitCount, denseBelow }, fields)

/-- Reads a header and the records that follow it. -/
def read : Reader LayoutPlan := do
  let (plan, fields) ← readHeader
  let records ← readMany FieldRecord.read fields
  return { plan with records }

/-- The plan of a program, which `read` must take up to its end. -/
def decode (program : Program) : Except ProgramError LayoutPlan :=
  match read program with
  | .ok plan [] => .ok plan
  | .ok plan (_ :: _) => .error (.trailingData plan.records.length)
  | .error error _ => .error error

end LayoutPlan

end SchemaLayout
