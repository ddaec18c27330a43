import SchemaLayout.Program.Group

/-!
# Instruction streams

A stream of opcodes and their operands. It starts with the number of its format, and then every part
is written in one of five ways, without a mark that says which: the reader must ask for the parts in
the order in which they were written.
-/

namespace SchemaLayout

/-- A set of opcodes, each with its `number`. -/
class Opcode (Op : Type) where
  number : Op → Nat
  ofNumber? : Nat → Option Op

namespace Program

/-- The format of the streams that are written here, `0`. -/
def format : Nat := 0

/-! ## Writing -/

/-- The stream without any part: its `format`. -/
def emptyStream : Program :=
  writeVarint format

/-- Writes the `number` of an opcode. -/
def writeOpcode {Op : Type} [Opcode Op] (op : Op) : Program :=
  writeVarint (Opcode.number op)

/-- Writes a number with sign as the `UInt32` that has the same bits. -/
def writeInt32 (value : Int32) : Program :=
  writeVarint value.toUInt32.toNat

/-- Writes a text, ended by `0`. -/
def writeText (content : String) : Program :=
  content.toList ++ writeVarint 0

/-- Writes the count of some texts, then each of them. -/
def writeTexts (contents : List String) : Program :=
  writeVarint contents.length ++ contents.flatMap writeText

/-! ## Reading -/

/-- Reads the number of the format, which must be `format`. -/
def readFormat : Reader Unit := do
  let found ← readVarint
  if found ≠ format then throw (.unsupportedFormat found)

/-- Reads an opcode; `0` is never one. -/
def readOpcode {Op : Type} [Opcode Op] : Reader Op := do
  let number ← readVarint
  if number = 0 then throw (.invalidOpcode number)
  match Opcode.ofNumber? number with
  | some op => return op
  | none => throw (.invalidOpcode number)

/-- Reads a number as `writeInt32` writes it. One of more than 32 bits is refused. -/
def readInt32 : Reader Int32 := do
  let value ← readVarint
  if value ≤ 0xFFFFFFFF then return (UInt32.ofNat value).toInt32 else throw (.int32Overflow value)

/-- Reads a text up to its `0`. -/
def readText : Reader String := fun program =>
  match program.span (· ≠ '\x00') with
  | (content, _ :: rest) => .ok (String.ofList content) rest
  | (_, []) => .error .unexpectedEnd []

/-- Reads texts after their count, as `writeTexts` writes them. -/
def readTexts : Reader (List String) := do
  let count ← readVarint
  readMany readText count

/-! ## Parts -/

/-- One part of a stream. -/
inductive Operand (Op : Type) where
  | opcode (op : Op)
  | int32 (value : Int32)
  | word (value : Nat)
  | text (content : String)
  | texts (contents : List String)

/-- Writes a part. -/
def Operand.write {Op : Type} [Opcode Op] : Operand Op → Program
  | opcode op => writeOpcode op
  | int32 value => writeInt32 value
  | word value => writeVarint value
  | text content => writeText content
  | texts contents => writeTexts contents

end Program

end SchemaLayout
