import SchemaLayout.NameTable.Entry
import SchemaLayout.NameTable.Opcode

/-!
# Programs of name tables

The program of a name table is the stream of its entries in order. The number of an entry is written
as its distance from the previous number; a distance of one has opcodes of its own. Reserved entries
do not count as previous. Distances wrap around at 32 bits, and so does the count of a reserved
range, for which zero stands for every number there is.
-/

namespace SchemaLayout.NameTable

open Program

/-! ## Writing -/

/-- Writes the opcode and the distance of an entry after the number `previous`. -/
def writeNumbered (previous number : Int32) (form : NameForm) : Program :=
  let step := number - previous
  if step = 1 then writeOpcode (NameOpcode.next form)
  else writeOpcode (NameOpcode.delta form) ++ writeInt32 step

/-- Writes an entry after the number `previous`. -/
def writeEntry (previous : Int32) : NameEntry → Program
  | .same number name => writeNumbered previous number .same ++ writeText name
  | .standard number name => writeNumbered previous number .standard ++ writeText name
  | .unique number name json =>
    writeNumbered previous number .unique ++ writeText name ++ writeText json
  | .group number name => writeNumbered previous number .group ++ writeText name
  | .aliased number name aliases =>
    writeNumbered previous number .aliased ++ writeText name ++ writeTexts aliases
  | .reservedName name => writeOpcode NameOpcode.reservedName ++ writeText name
  | .reservedNumbers first last =>
    writeOpcode NameOpcode.reservedNumbers ++ writeInt32 first ++ writeInt32 (last - first + 1)

/-- Writes entries after the number `previous`. -/
def writeEntries (previous : Int32) : List NameEntry → Program
  | [] => []
  | entry :: rest =>
    writeEntry previous entry ++ writeEntries (entry.number?.getD previous) rest

/-- The program of a name table: `emptyStream`, then its entries after the number `0`. -/
def encode (entries : List NameEntry) : Program :=
  emptyStream ++ writeEntries 0 entries

/-! ## Reading -/

/-- Reads the names of an entry, whose form says which of them there are. -/
def readNames (number : Int32) : NameForm → Reader NameEntry
  | .same => return .same number (← readText)
  | .standard => return .standard number (← readText)
  | .unique => return .unique number (← readText) (← readText)
  | .group => return .group number (← readText)
  | .aliased => return .aliased number (← readText) (← readTexts)

/-- Reads an entry after the number `previous`. -/
def readEntry (previous : Int32) : Reader NameEntry := do
  match ← (readOpcode : Reader NameOpcode) with
  | .next form => readNames (previous + 1) form
  | .delta form => readNames (previous + (← readInt32)) form
  | .reservedName => return .reservedName (← readText)
  | .reservedNumbers =>
    let first ← readInt32
    let count ← readInt32
    return .reservedNumbers first (first + count - 1)

/-- The entries of a program after the number `previous`. Each step of `fuel` pays for at least one
unit. -/
def readEntries (fuel : Nat) (previous : Int32) (program : Program) :
    Except ProgramError (List NameEntry) :=
  match fuel, program with
  | _, [] => .ok []
  | 0, _ => .error .unexpectedEnd
  | fuel + 1, program =>
    match readEntry previous program with
    | .ok entry rest => do
      let others ← readEntries fuel (entry.number?.getD previous) rest
      return entry :: others
    | .error error _ => .error error

/-- The entries of a name table's program. Its length is fuel enough for `readEntries`. -/
def decode (program : Program) : Except ProgramError (List NameEntry) :=
  match readFormat program with
  | .ok _ rest => readEntries rest.length 0 rest
  | .error error _ => .error error

end SchemaLayout.NameTable
