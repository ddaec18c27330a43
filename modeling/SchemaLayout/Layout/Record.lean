import SchemaLayout.Declaration.FieldType
import SchemaLayout.Program.Group

/-!
# Layout records

What a layout says of one field: its number and mode, where its value lies, how its being set is
tracked, which submessage it holds and of which type it is. A record is 13 units of a program:

  `number + mode · 2²⁸` (5), offset (3), presence (2), submessage (2), type (1)

The mode has no lowest bit, so it starts just above the 29 bits of the number.
-/

namespace SchemaLayout

/-! ## Modes -/

/-- How many values a field holds, as a layout sees it. -/
inductive Cardinality where
  | scalar
  | array
  | map
  deriving DecidableEq, Inhabited

/-- The low bits of a mode: `0`, `2` or `4`. Bit 0 is not used. -/
def Cardinality.bits : Cardinality → Nat
  | scalar => 0
  | array => 2
  | map => 4

/-- The name of a cardinality. -/
def Cardinality.display : Cardinality → String
  | scalar => "scalar"
  | array => "array"
  | map => "map"

/-- The kind of a field. -/
structure FieldMode where
  cardinality : Cardinality := .scalar
  isPacked : Bool := false
  isExtension : Bool := false
  deriving DecidableEq, Inhabited

namespace FieldMode

/-- The bits of a mode: those of the cardinality, then bit 3 for `isPacked`, then bit 4 for `isExtension`. -/
def bits (mode : FieldMode) : Nat :=
  mode.cardinality.bits + (if mode.isPacked then 8 else 0) + (if mode.isExtension then 16 else 0)

/-- Every mode: three cardinalities, packed or not, of an extension or not. -/
def all : List FieldMode :=
  [false, true].flatMap fun isExtension =>
    [false, true].flatMap fun isPacked =>
      [Cardinality.scalar, .array, .map].map fun cardinality =>
        { cardinality, isPacked, isExtension }

/-- The mode whose `FieldMode.bits` these are; all other numbers are refused. -/
def ofBits (bits : Nat) : Except ProgramError FieldMode :=
  match all.find? (·.bits = bits) with
  | some mode => .ok mode
  | none => .error (.invalidFieldMode bits)

end FieldMode

/-! ## Presence -/

/-- How a field's being set is tracked: by a bit of its own, by the slot of its oneof, or not. -/
inductive Presence where
  | none
  | hasBit (index : Nat)
  | oneofSlot (offset : Nat)
  deriving DecidableEq, Inhabited

namespace Presence

/-- The 14 bits of a presence: `0` for `none`, one more than the index of a has-bit, and the complement of the
offset of a slot. Indices and offsets that would meet each other do not fit. -/
def encode : Presence → Except ProgramError Nat
  | none => .ok 0
  | hasBit index => if index < 0x1FFF then .ok (index + 1) else .error (.overflow index 2)
  | oneofSlot offset => if offset < 0x2000 then .ok (0x3FFF - offset) else .error (.overflow offset 2)

/-- The presence that the low 14 bits of a number stand for. -/
def decode (raw : Nat) : Presence :=
  let low := raw % 0x4000
  if low = 0 then none
  else if low < 0x2000 then hasBit (low - 1)
  else oneofSlot (0x3FFF - low)

/-- The text of a presence in a listing. -/
def display : Presence → String
  | none => "-"
  | hasBit index => "bit " ++ toString index
  | oneofSlot offset => "oneof @" ++ toString offset

end Presence

/-! ## Records -/

/-- The record of one field. Its `submessage` is counted from one; `0` is none. -/
structure FieldRecord where
  number : Nat
  mode : FieldMode
  offset : Nat
  presence : Presence
  submessage : Nat
  type : FieldType
  deriving DecidableEq, Inhabited

namespace FieldRecord

/-- Numbers of fields have 29 bits, so they are below `2 ^ 29`. -/
def numberLimit : Nat := 0x20000000

open Program

/-- Writes a record in 13 units, if all its parts fit. The bits of the mode stand above the number. -/
def write (record : FieldRecord) : Except ProgramError Program := do
  if numberLimit ≤ record.number then throw (.overflow record.number 5)
  let number ← writeFixed 5 (record.number + record.mode.bits * 0x10000000)
  let offset ← writeFixed 3 record.offset
  let presence ← writeFixed 2 (← record.presence.encode)
  let submessage ← writeFixed 2 record.submessage
  let type ← writeFixed 1 record.type.tag
  return number ++ offset ++ presence ++ submessage ++ type

/-- Reads a record. All its units are taken before any of them is judged. -/
def read : Reader FieldRecord := do
  let tagged ← readFixed 5
  let offset ← readFixed 3
  let presence ← readFixed 2
  let submessage ← readFixed 2
  let tag ← readFixed 1
  let mode ← MonadExcept.ofExcept (FieldMode.ofBits (tagged / numberLimit * 2))
  let some type := FieldType.ofTag? tag | throw (.unknownFieldType tag)
  return {
    number := tagged % numberLimit, mode, offset, presence := .decode presence, submessage, type
  }

end FieldRecord

end SchemaLayout
