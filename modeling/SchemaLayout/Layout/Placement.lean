import SchemaLayout.Layout.Plan
import SchemaLayout.Layout.StorageKind
import SchemaLayout.Layout.Submessage

/-!
# Placement

Where the values of a message lie. Its storage starts with one has-bit for each field, in whole bytes;
then comes a slot for each oneof, which holds the number of the member that is set; then come the
values, kind by kind. A region of values starts at a multiple of their stride and has no gaps.

Fields are given in ascending order of number, and every order here that is not one of storage kinds is
that one.
-/

namespace SchemaLayout

/-! ## Fields -/

/-- A field as far as its layout depends on it. -/
structure FieldShape where
  number : Nat
  type : FieldType
  mode : FieldMode := {}
  storageKind : StorageKind
  isRequired : Bool := false
  hasPresence : Bool := false
  /-- The place of the field's oneof among the oneofs of the message. -/
  oneofIndex : Option Nat := none
  submessage : Option SubmessageRef := none
  deriving DecidableEq, Inhabited

namespace FieldShape

/-- A field that holds one value and does not track whether it is set. -/
def scalar (number : Nat) (type : FieldType) : FieldShape :=
  { number, type, storageKind := .ofType type }

/-- The field with `hasPresence`. -/
def withPresence (shape : FieldShape) : FieldShape :=
  { shape with hasPresence := true }

/-- The field with `isRequired` and therefore `hasPresence`. -/
def required (shape : FieldShape) : FieldShape :=
  { shape with isRequired := true, hasPresence := true }

/-- The field as a member of the oneof of `index`, whose slot tracks it. -/
def inOneof (shape : FieldShape) (index : Nat) : FieldShape :=
  { shape with oneofIndex := some index, hasPresence := true }

/-- The field with the cardinality `.array`, whose values are behind a `.pointer`. -/
def repeated (shape : FieldShape) : FieldShape :=
  { shape with mode := { shape.mode with cardinality := .array }, storageKind := .pointer }

/-- The field with messages of the type `typeName`. -/
def withSubmessage (shape : FieldShape) (typeName : String) (needsCheck : Bool) : FieldShape :=
  { shape with submessage := some { typeName, needsCheck } }

/-- The field owns a has-bit: it has `hasPresence`, and is not tracked by the slot of a oneof. -/
def isTracked (shape : FieldShape) : Bool :=
  shape.hasPresence && shape.oneofIndex.isNone

end FieldShape

/-- The `plans` of a message for both targets, and the `submessages` that their records refer to. -/
structure MessageLayout where
  plans : PerTarget LayoutPlan
  submessages : List Submessage
  deriving DecidableEq, Inhabited

/-- The programs of both `plans`, if `LayoutPlan.encode` writes them. -/
def MessageLayout.encode (layout : MessageLayout) : Except ProgramError (PerTarget Program) :=
  layout.plans.mapExcept LayoutPlan.encode

namespace Placement

/-! ## Presence -/

/-- The bytes of a slot, `4`. -/
def slotBytes : Nat := 4

/-- The bytes of the has-bits of `count` fields. -/
def hasBitBytes (count : Nat) : Nat :=
  (count + 7) / 8

/-- The number of slots: one more than the highest `oneofIndex` of any field. -/
def slotCount (shapes : List FieldShape) : Nat :=
  (shapes.filterMap (·.oneofIndex)).foldl (fun count index => max count (index + 1)) 0

/-- The offset of the first slot: the end of the has-bits, rounded up to `slotBytes`. -/
def slotStart (shapes : List FieldShape) : Nat :=
  alignUp slotBytes (hasBitBytes shapes.length)

/-- The end of has-bits and slots. Without slots, the has-bits are not padded. -/
def presenceEnd (shapes : List FieldShape) : Nat :=
  if slotCount shapes = 0 then hasBitBytes shapes.length
  else slotStart shapes + slotBytes * slotCount shapes

/-- How the fields are tracked, where required fields take has-bits from `required` on and others from
`others` on. -/
def presencesFrom (slots required others : Nat) : List FieldShape → List Presence
  | [] => []
  | shape :: rest =>
    match shape.oneofIndex with
    | some index =>
      .oneofSlot (slots + slotBytes * index) :: presencesFrom slots required others rest
    | none =>
      if !shape.hasPresence then .none :: presencesFrom slots required others rest
      else if shape.isRequired then .hasBit required :: presencesFrom slots (required + 1) others rest
      else .hasBit others :: presencesFrom slots required (others + 1) rest

/-- How the fields are tracked. The has-bits of required fields come first, so those of others start at
`required`. -/
def presences (shapes : List FieldShape) : List Presence :=
  let required := shapes.countP fun shape => shape.isTracked && shape.isRequired
  presencesFrom (slotStart shapes) 0 required shapes

/-! ## Offsets -/

/-- Where the region of each of `kinds` starts if the first may start at `cursor`, and where the last
region ends. A kind without fields takes no room, not even for alignment. -/
def regions (target : Target) (count : StorageKind → Nat) :
    (kinds : List StorageKind) → (cursor : Nat) → PerKind × Nat
  | [], cursor => ({}, cursor)
  | kind :: rest, cursor =>
    let start := if count kind = 0 then cursor else alignUp (kind.stride target) cursor
    let (starts, stop) := regions target count rest (start + kind.stride target * count kind)
    (starts.set kind start, stop)

/-- The offsets of values of the given kinds, where the next value of each kind goes to `next`. -/
def offsetsFrom (target : Target) (next : PerKind) : List StorageKind → List Nat
  | [] => []
  | kind :: rest =>
    let offset := next.get kind
    offset :: offsetsFrom target (next.set kind (offset + kind.stride target)) rest

/-- The offsets of the fields on a target, and the size of the message, from its `regions`. -/
def offsets (target : Target) (shapes : List FieldShape) : List Nat × Nat :=
  let kinds := shapes.map (·.storageKind)
  let counts := StorageKind.all.foldl (fun counts kind => counts.set kind (kinds.count kind)) ({} : PerKind)
  let (starts, size) := regions target counts.get StorageKind.all (presenceEnd shapes)
  (offsetsFrom target starts kinds, size)

/-- The fields in the order of `StorageKind.all`. -/
def byStorage (shapes : List FieldShape) : List FieldShape :=
  StorageKind.all.flatMap fun kind => shapes.filter (·.storageKind = kind)

/-! ## Submessages -/

/-- The types that fields refer to, met in the order of `byStorage`. -/
def submessages (shapes : List FieldShape) : SubmessageTable :=
  (byStorage shapes).foldl (fun table shape =>
    match shape.submessage with
    | some ref => table.collect ref shape.number
    | none => table) .empty

/-- The index of the type that a field refers to, or `0`. -/
def submessageIndex (table : SubmessageTable) (shape : FieldShape) : Nat :=
  (shape.submessage.bind fun ref => table.index? ref.typeName).getD 0

/-! ## Plans -/

/-- The first number from `next` on that is not next in the ascending `numbers`. -/
def denseBelow (next : Nat) : (numbers : List Nat) → Nat
  | [] => next
  | number :: rest => if number = next then denseBelow (next + 1) rest else next

/-- The record of a field that is stored at `offset`. -/
def record (table : SubmessageTable) (shape : FieldShape) (offset : Nat) (presence : Presence) :
    FieldRecord where
  number := shape.number
  mode := shape.mode
  offset := offset
  presence := presence
  submessage := submessageIndex table shape
  type := shape.type

/-- The plan of a message on a target, with the submessages of `table`. -/
def plan (shapes : List FieldShape) (table : SubmessageTable) (target : Target) : LayoutPlan :=
  let (offsets, size) := offsets target shapes
  {
    size
    requiredCount := shapes.countP (·.isRequired)
    explicitCount := shapes.countP (·.isTracked)
    denseBelow := denseBelow 1 (shapes.map (·.number))
    records := ((shapes.zip offsets).zip (presences shapes)).map fun ((shape, offset), presence) =>
      record table shape offset presence
  }

/-- The layout of a message with the fields `shapes`: one `plan` for each target. -/
def layout (shapes : List FieldShape) : MessageLayout :=
  let table := submessages shapes
  { plans := .ofTarget (plan shapes table), submessages := table.values }

end Placement

end SchemaLayout
