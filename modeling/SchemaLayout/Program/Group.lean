import SchemaLayout.Program.Error

/-!
# Groups

A program is a text whose characters are its units. Numbers of up to 64 bits are cut into groups, the
lowest bits first, and every group is one unit below 128. There are two forms:

* a number of fixed width takes as many groups of seven bits as its slot has;
* a number of free width takes groups of six bits, and all but the last are marked by `0x40`.

A reader takes units off the front of a program and leaves the rest, also when it fails: the unit
that made it fail is gone.
-/

namespace SchemaLayout

/-- A program, unit by unit. -/
abbrev Program := List Char

namespace Program

/-- Reads from the front of a program. -/
abbrev Reader := EStateM ProgramError Program

/-- Numbers have 64 bits, so they are below `2 ^ 64`. -/
def wordLimit : Nat := 0x10000000000000000

/-! ## Single groups -/

/-- The unit of a group, which is below `128`. -/
def groupUnit (group : Nat) : Char :=
  Char.ofNat group

/-- Takes one group. A unit from `128` on is none. -/
def readGroup : Reader Nat := fun program =>
  match program with
  | [] => .error .unexpectedEnd []
  | unit :: rest => if unit.toNat < 128 then .ok unit.toNat rest else .error (.invalidUnit unit) rest

/-! ## Numbers of fixed width -/

/-- The largest number of a width: `128 ^ width - 1`, or `wordLimit - 1` if that is less. -/
def fixedMax (width : Nat) : Nat :=
  min (Nat.pow 128 width) wordLimit - 1

/-- The groups of a number, cut off after `width` of them. -/
def fixedGroups : (width value : Nat) → Program
  | 0, _ => []
  | width + 1, value => groupUnit (value % 128) :: fixedGroups width (value / 128)

/-- Writes a number in `width` units, if it is at most `fixedMax width`. -/
def writeFixed (width value : Nat) : Except ProgramError Program :=
  if fixedMax width < value then .error (.overflow value width) else .ok (fixedGroups width value)

/-- Reads a number of `width` units; bits above the 64th are lost. -/
def readFixed : (width : Nat) → Reader Nat
  | 0 => return 0
  | width + 1 => do
    let group ← readGroup
    let higher ← readFixed width
    return (group + 128 * higher) % wordLimit

/-! ## Numbers of free width -/

/-- Writes a number of free width, six bits in a unit. In every unit but the last, `64` is added. -/
def writeVarint (value : Nat) : Program :=
  if value < 64 then [groupUnit value]
  else groupUnit (64 + value % 64) :: writeVarint (value / 64)
termination_by value

/-- Reads a number as `writeVarint` writes it; bits above the 64th are lost. -/
def readVarint : Reader Nat
  | [] => .error .unexpectedEnd []
  | unit :: rest =>
    if unit.toNat < 64 then .ok unit.toNat rest
    else if unit.toNat < 128 then
      match readVarint rest with
      | .ok higher rest => .ok ((unit.toNat - 64 + 64 * higher) % wordLimit) rest
      | .error error rest => .error error rest
    else .error (.invalidUnit unit) rest

/-- Reads `count` things, one after the other. -/
def readMany {α : Type} (read : Reader α) : (count : Nat) → Reader (List α)
  | 0 => return []
  | count + 1 => do
    let first ← read
    let others ← readMany read count
    return first :: others

end Program

end SchemaLayout
