import SchemaLayout.Program.Operand

/-!
# Opcodes of name tables

Five kinds of entry have a number. Each has two opcodes: one for the number after the previous entry's
and one that is followed by the distance to it. Two more kinds of entry have no number of their own.
-/

namespace SchemaLayout

/-- How an entry gives the two names of its number. -/
inductive NameForm where
  /-- The JSON name is the declared name. -/
  | same
  /-- The JSON name is derived from the declared name. -/
  | standard
  /-- Both names are given. -/
  | unique
  /-- The name of a group's message is given. -/
  | group
  /-- A name and more names of the same number are given. -/
  | aliased
  deriving DecidableEq, Inhabited

/-- An opcode of a name table. -/
inductive NameOpcode where
  /-- An entry for the next number. -/
  | next (form : NameForm)
  /-- An entry for a number whose distance follows. -/
  | delta (form : NameForm)
  | reservedName
  | reservedNumbers
  deriving DecidableEq, Inhabited

namespace NameOpcode

/-- Every opcode, in the order of their numbers. -/
def all : List NameOpcode :=
  [next .same, delta .same, next .standard, delta .standard, next .unique, delta .unique,
    next .group, delta .group, next .aliased, delta .aliased, reservedName, reservedNumbers]

/-- The number of an opcode: its place in `all`, counted from one. -/
def number : NameOpcode → Nat
  | next .same => 1
  | delta .same => 2
  | next .standard => 3
  | delta .standard => 4
  | next .unique => 5
  | delta .unique => 6
  | next .group => 7
  | delta .group => 8
  | next .aliased => 9
  | delta .aliased => 10
  | reservedName => 11
  | reservedNumbers => 12

/-- The name of an opcode. -/
def display : NameOpcode → String
  | next .same => "SameNext"
  | delta .same => "SameDelta"
  | next .standard => "StandardNext"
  | delta .standard => "StandardDelta"
  | next .unique => "UniqueNext"
  | delta .unique => "UniqueDelta"
  | next .group => "GroupNext"
  | delta .group => "GroupDelta"
  | next .aliased => "AliasNext"
  | delta .aliased => "AliasDelta"
  | reservedName => "ReservedName"
  | reservedNumbers => "ReservedNumbers"

/-- The opcode in `all` with `number`. -/
def ofNumber? (number : Nat) : Option NameOpcode :=
  all.find? (·.number = number)

instance : Opcode NameOpcode := ⟨number, ofNumber?⟩

/-- The distance to the previous number follows the opcode, as it does for every `delta`. -/
def hasDelta : NameOpcode → Bool
  | delta _ => true
  | _ => false

end NameOpcode

end SchemaLayout
