import SchemaLayout.Program.Operand

/-!
# Writing and reading streams part by part

A writer puts the parts of a stream behind each other and knows whether there are any. Every part ends
with a number, so it is numbers that make a difference. A reader asks for a part of a kind and leaves the
units behind it; as long as there are any, there is something to ask for.
-/

namespace SchemaLayout.Program

/-! ## Writers -/

/-- A stream while it is written. -/
structure Writer where
  program : Program
  /-- Something stands behind the number of the format. -/
  hasData : Bool

namespace Writer

/-- A writer that has written the number of the format. -/
def start : Writer := ⟨emptyStream, false⟩

/-- Writes a number of up to 64 bits. -/
def writeWord (writer : Writer) (value : Nat) : Writer :=
  ⟨writer.program ++ writeVarint value, true⟩

/-- Writes a text, ended by a zero. -/
def writeText (writer : Writer) (content : String) : Writer :=
  { writer with program := writer.program ++ content.toList }.writeWord 0

/-- Writes a part. -/
def write {Op : Type} [Opcode Op] (writer : Writer) : Operand Op → Writer
  | .opcode op => writer.writeWord (Opcode.number op)
  | .int32 value => writer.writeWord value.toUInt32.toNat
  | .word value => writer.writeWord value
  | .text content => writer.writeText content
  | .texts contents => contents.foldl writeText (writer.writeWord contents.length)

/-- Writes parts one after the other. -/
def writeAll {Op : Type} [Opcode Op] (writer : Writer) (operands : List (Operand Op)) : Writer :=
  operands.foldl write writer

end Writer

/-! ## Readers -/

/-- The way in which a part is written. -/
inductive OperandKind where
  | opcode
  | int32
  | word
  | text
  | texts
  deriving DecidableEq

/-- The way in which a part is written. -/
def Operand.kind {Op : Type} : Operand Op → OperandKind
  | opcode _ => .opcode
  | int32 _ => .int32
  | word _ => .word
  | text _ => .text
  | texts _ => .texts

/-- Reads a part that was written in some way. -/
def readOperand {Op : Type} [Opcode Op] : OperandKind → Reader (Operand Op)
  | .opcode => return .opcode (← readOpcode)
  | .int32 => return .int32 (← readInt32)
  | .word => return .word (← readVarint)
  | .text => return .text (← readText)
  | .texts => return .texts (← readTexts)

/-- Reads parts one after the other. -/
def readOperands {Op : Type} [Opcode Op] : List OperandKind → Reader (List (Operand Op))
  | [] => return []
  | kind :: rest => do
    let first ← readOperand kind
    let others ← readOperands rest
    return first :: others

/-- There are units left to read. -/
def hasData (program : Program) : Bool :=
  !program.isEmpty

end SchemaLayout.Program
