import SchemaLayout.Declaration.FieldType
import SchemaLayout.Target

/-!
# Storage kinds

How the value of a field is stored. Values of one kind lie together, and the kinds follow each other in
a fixed order that puts small values first, so that little room is lost to alignment.
-/

namespace SchemaLayout

/-- How a value is stored. Pointers stand for messages and for everything repeated. -/
inductive StorageKind where
  | oneByteScalar
  | fourByteScalar
  | eightByteScalar
  | pointer
  | stringOrData
  deriving DecidableEq, Inhabited

namespace StorageKind

/-- Every kind, in the order of storage. -/
def all : List StorageKind :=
  [oneByteScalar, fourByteScalar, eightByteScalar, pointer, stringOrData]

/-- The name of a kind in listings. -/
def display : StorageKind → String
  | oneByteScalar => "OneByteScalar"
  | fourByteScalar => "FourByteScalar"
  | eightByteScalar => "EightByteScalar"
  | pointer => "Pointer"
  | stringOrData => "StringOrData"

/-- The bytes that a value takes on `target`; its offset is a multiple of them. -/
def stride (target : Target) : StorageKind → Nat
  | oneByteScalar => 1
  | fourByteScalar => 4
  | eightByteScalar => 8
  | pointer => target.pointerBytes
  | stringOrData =>
    match target with
    | .bits64 => 16
    | .bits32 => 12

/-- The kind of a field that holds one value of a type. -/
def ofType : FieldType → StorageKind
  | .bool => oneByteScalar
  | .int32 | .uint32 | .sint32 | .fixed32 | .sfixed32 | .float | .enum => fourByteScalar
  | .int64 | .uint64 | .sint64 | .fixed64 | .sfixed64 | .double => eightByteScalar
  | .message | .group => pointer
  | .string | .bytes => stringOrData

end StorageKind

/-- A number for each storage kind. -/
structure PerKind where
  oneByteScalar : Nat := 0
  fourByteScalar : Nat := 0
  eightByteScalar : Nat := 0
  pointer : Nat := 0
  stringOrData : Nat := 0
  deriving DecidableEq, Inhabited

namespace PerKind

/-- The number of `kind`. -/
def get (numbers : PerKind) : StorageKind → Nat
  | .oneByteScalar => numbers.oneByteScalar
  | .fourByteScalar => numbers.fourByteScalar
  | .eightByteScalar => numbers.eightByteScalar
  | .pointer => numbers.pointer
  | .stringOrData => numbers.stringOrData

/-- Gives `kind` another number and leaves the others. -/
def set (numbers : PerKind) (kind : StorageKind) (number : Nat) : PerKind :=
  match kind with
  | .oneByteScalar => { numbers with oneByteScalar := number }
  | .fourByteScalar => { numbers with fourByteScalar := number }
  | .eightByteScalar => { numbers with eightByteScalar := number }
  | .pointer => { numbers with pointer := number }
  | .stringOrData => { numbers with stringOrData := number }

theorem get_set (numbers : PerKind) (kind other : StorageKind) (number : Nat) :
    (numbers.set kind number).get other = if other = kind then number else numbers.get other := by
  cases kind <;> cases other <;> rfl

end PerKind

end SchemaLayout
