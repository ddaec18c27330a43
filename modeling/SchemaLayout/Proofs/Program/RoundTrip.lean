import SchemaLayout.Program.Stream
import SchemaLayout.Proofs.Program.Stream

/-!
# Streams are read back part by part

Nothing in a stream says how its parts are written, so a reader has to ask for them in the order in which they were
written. If it does, it is given each of them (`readOperands_writeAll`): parts can be written one behind the other
because each is read back whatever stands behind it.
-/

namespace SchemaLayout.Program

variable {Op : Type} [Opcode Op]

/-! ## Writing -/

theorem foldl_writeText (writer : Writer) (contents : List String) (h : writer.hasData = true) :
    contents.foldl Writer.writeText writer = ⟨writer.program ++ contents.flatMap writeText, true⟩ := by
  induction contents generalizing writer with
  | nil => simp [← h]
  | cons content rest ih =>
    rw [List.foldl_cons, ih _ rfl]
    simp [Writer.writeText, Writer.writeWord, writeText]

/-- `Writer.write` puts `operand.write` behind the program. -/
theorem write_eq (writer : Writer) (operand : Operand Op) :
    writer.write operand = ⟨writer.program ++ operand.write, true⟩ := by
  cases operand with
  | opcode | int32 | word => rfl
  | text content => simp [Writer.write, Writer.writeText, Writer.writeWord, Operand.write, writeText]
  | texts contents =>
    show contents.foldl Writer.writeText (writer.writeWord contents.length) = _
    rw [foldl_writeText _ _ rfl]
    simp [Writer.writeWord, Operand.write, writeTexts]

/-- `Writer.writeAll` puts all operands behind the program. -/
theorem writeAll_eq (writer : Writer) (operands : List (Operand Op)) : writer.writeAll operands =
    ⟨writer.program ++ operands.flatMap Operand.write, writer.hasData || !operands.isEmpty⟩ := by
  unfold Writer.writeAll
  induction operands generalizing writer with
  | nil => simp
  | cons operand rest ih =>
    rw [List.foldl_cons, ih, write_eq]
    simp

theorem write_ne_nil (operand : Operand Op) : operand.write ≠ [] := by
  cases operand with
  | opcode | int32 | word => apply writeVarint_ne_nil
  | text => exact List.append_ne_nil_of_right_ne_nil _ (writeVarint_ne_nil 0)
  | texts => exact List.append_ne_nil_of_left_ne_nil (writeVarint_ne_nil _) _

/-- `hasData` says whether there are operands. -/
theorem hasData_flatMap_write (operands : List (Operand Op)) :
    hasData (operands.flatMap Operand.write) = true ↔ operands ≠ [] := by
  cases operands with
  | nil => simp [hasData]
  | cons operand rest => simp [hasData, write_ne_nil]

/-! ## Reading -/

/-- What can be read back: numbers of 64 bits and texts without zeros. -/
def Operand.IsWritable : Operand Op → Prop
  | opcode _ | int32 _ => True
  | word value => value < wordLimit
  | text content => IsZeroFree content
  | texts contents => contents.length < wordLimit ∧ ∀ content ∈ contents, IsZeroFree content

instance (operand : Operand Op) : Decidable operand.IsWritable :=
  match operand with
  | .opcode _ | .int32 _ => inferInstanceAs (Decidable True)
  | .word value => inferInstanceAs (Decidable (value < wordLimit))
  | .text content => inferInstanceAs (Decidable (IsZeroFree content))
  | .texts contents =>
    inferInstanceAs (Decidable (contents.length < wordLimit ∧ ∀ content ∈ contents, IsZeroFree content))

variable [LawfulOpcode Op]

/-- `readOperand` reads back a writable operand of its kind. -/
theorem reads_readOperand {operand : Operand Op} (h : operand.IsWritable) :
    Reads (readOperand operand.kind) operand.write operand := by
  cases operand with
  | opcode op => exact (reads_readOpcode op).map Operand.opcode
  | int32 value => exact (reads_readInt32 value).map Operand.int32
  | word value => exact (reads_readVarint h).map Operand.word
  | text content => exact (reads_readText h).map Operand.text
  | texts contents => exact (reads_readTexts h.1 h.2).map Operand.texts

/-- `readOperands` reads back writable operands of their kinds. -/
theorem reads_readOperands {operands : List (Operand Op)} (h : ∀ operand ∈ operands, operand.IsWritable) :
    Reads (readOperands (operands.map Operand.kind)) (operands.flatMap Operand.write) operands := by
  induction operands with
  | nil => exact Reads.pure []
  | cons operand rest ih =>
    obtain ⟨hfirst, hrest⟩ := List.forall_mem_cons.1 h
    exact (reads_readOperand hfirst).bind ((ih hrest).map (operand :: ·))

theorem reads_readFormat : Reads readFormat emptyStream () := by
  intro rest
  rw [readFormat, bind_eq_ok_iff]
  exact ⟨format, rest, reads_readVarint (by decide) rest, rfl⟩

/-- `readOperands` gives back the operands of `writeAll` in their order. `hasData` holds before each of them and
not behind the last, and of the writer once it has written one. -/
theorem readOperands_writeAll {operands : List (Operand Op)} (h : ∀ operand ∈ operands, operand.IsWritable) :
    let writer := Writer.start.writeAll operands
    (writer.hasData = true ↔ operands ≠ []) ∧
      ∃ start, readFormat writer.program = .ok () start ∧
        ∀ before behind, operands = before ++ behind →
          ∃ rest, readOperands (before.map Operand.kind) start = .ok before rest ∧
            (hasData rest = true ↔ behind ≠ []) := by
  rw [writeAll_eq]
  refine ⟨by simp [Writer.start], operands.flatMap Operand.write, reads_readFormat _, ?_⟩
  rintro before behind rfl
  have hbefore : ∀ operand ∈ before, operand.IsWritable := fun operand hmem =>
    h operand (List.mem_append_left behind hmem)
  refine ⟨behind.flatMap Operand.write, ?_, hasData_flatMap_write behind⟩
  rw [List.flatMap_append]
  exact reads_readOperands hbefore _

/-! ## A drawing -/

/-- What a pen does. -/
inductive PenMove where
  | lift
  | draw
  deriving DecidableEq

instance : Opcode PenMove where
  number
    | .lift => 1
    | .draw => 64
  ofNumber?
    | 1 => some .lift
    | 64 => some .draw
    | _ => none

instance : LawfulOpcode PenMove where
  number_ne_zero op := by cases op <;> decide
  number_lt op := by cases op <;> decide
  ofNumber?_number op := by cases op <;> rfl

/-- A drawing: its numbers are of all lengths, and its texts look like numbers. -/
def drawing : List (Operand PenMove) := [
  .opcode .draw, .int32 (-1), .word 0xFFFFFFFFFFFFFFFF, .text "@é", .opcode .lift, .texts ["", "\x01?"],
  .word 0, .texts []]

/-- The operands of a drawing are read back one by one. -/
theorem readOperands_writeAll_drawing : (∀ operand ∈ drawing, operand.IsWritable) ∧
    (Writer.start.writeAll drawing).hasData = true ∧
      ∃ start, readFormat (Writer.start.writeAll drawing).program = .ok () start ∧ hasData start = true ∧
        (∃ rest, readOperands [.opcode, .int32, .word, .text] start = .ok
            [.opcode PenMove.draw, .int32 (-1), .word 0xFFFFFFFFFFFFFFFF, .text "@é"] rest ∧
          hasData rest = true) ∧
        ∃ rest, readOperands (drawing.map Operand.kind) start = .ok drawing rest ∧ hasData rest = false := by
  have hwritable : ∀ operand ∈ drawing, operand.IsWritable := by decide
  obtain ⟨hwriter, start, hstart, hread⟩ := readOperands_writeAll hwritable
  obtain ⟨_, hnothing, hfirst⟩ := hread [] drawing rfl
  cases hnothing
  obtain ⟨middle, hmiddle, hmore⟩ := hread (drawing.take 4) (drawing.drop 4) rfl
  obtain ⟨rest, hall, hlast⟩ := hread drawing [] (List.append_nil _).symm
  refine ⟨hwritable, hwriter.2 (List.cons_ne_nil _ _), start, hstart, hfirst.2 (List.cons_ne_nil _ _),
    ⟨middle, hmiddle, hmore.2 (List.cons_ne_nil _ _)⟩, rest, hall, ?_⟩
  simpa using hlast

end SchemaLayout.Program
