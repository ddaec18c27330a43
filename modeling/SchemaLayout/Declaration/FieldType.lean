/-!
# Field types, labels and numbers

What a field declaration says besides its names: the type of its values, how many values it holds
and the number that stands for it on the wire.
-/

namespace SchemaLayout

/-- The type of a field's values. -/
inductive FieldType where
  | double
  | float
  | int64
  | uint64
  | int32
  | fixed64
  | fixed32
  | bool
  | string
  | group
  | message
  | bytes
  | uint32
  | enum
  | sfixed32
  | sfixed64
  | sint32
  | sint64
  deriving DecidableEq, Inhabited

namespace FieldType

/-- Every type, in the order of the tags. -/
def all : List FieldType :=
  [double, float, int64, uint64, int32, fixed64, fixed32, bool, string, group, message, bytes,
    uint32, enum, sfixed32, sfixed64, sint32, sint64]

/-- The tag of a type in programs: its place in `all`, counted from one. -/
def tag : FieldType → Nat
  | double => 1
  | float => 2
  | int64 => 3
  | uint64 => 4
  | int32 => 5
  | fixed64 => 6
  | fixed32 => 7
  | bool => 8
  | string => 9
  | group => 10
  | message => 11
  | bytes => 12
  | uint32 => 13
  | enum => 14
  | sfixed32 => 15
  | sfixed64 => 16
  | sint32 => 17
  | sint64 => 18

/-- The type with a tag. -/
def ofTag? (tag : Nat) : Option FieldType :=
  all.find? (·.tag = tag)

/-- The name of a type in schemas. -/
def keyword : FieldType → String
  | double => "double"
  | float => "float"
  | int64 => "int64"
  | uint64 => "uint64"
  | int32 => "int32"
  | fixed64 => "fixed64"
  | fixed32 => "fixed32"
  | bool => "bool"
  | string => "string"
  | group => "group"
  | message => "message"
  | bytes => "bytes"
  | uint32 => "uint32"
  | enum => "enum"
  | sfixed32 => "sfixed32"
  | sfixed64 => "sfixed64"
  | sint32 => "sint32"
  | sint64 => "sint64"

/-- The name of a type in documents. -/
def constant : FieldType → String
  | double => "TYPE_DOUBLE"
  | float => "TYPE_FLOAT"
  | int64 => "TYPE_INT64"
  | uint64 => "TYPE_UINT64"
  | int32 => "TYPE_INT32"
  | fixed64 => "TYPE_FIXED64"
  | fixed32 => "TYPE_FIXED32"
  | bool => "TYPE_BOOL"
  | string => "TYPE_STRING"
  | group => "TYPE_GROUP"
  | message => "TYPE_MESSAGE"
  | bytes => "TYPE_BYTES"
  | uint32 => "TYPE_UINT32"
  | enum => "TYPE_ENUM"
  | sfixed32 => "TYPE_SFIXED32"
  | sfixed64 => "TYPE_SFIXED64"
  | sint32 => "TYPE_SINT32"
  | sint64 => "TYPE_SINT64"

/-- Types whose values are messages. -/
def isMessageLike (type : FieldType) : Bool :=
  type = message || type = group

/-- Types whose repeated values can be written in one run: all but texts and messages. -/
def isPackable (type : FieldType) : Bool :=
  !(type = string || type = bytes || type.isMessageLike)

end FieldType

/-- How many values a field holds. -/
inductive Label where
  | optional
  | required
  | repeated
  deriving DecidableEq, Inhabited

namespace Label

/-- The name of a label in documents. -/
def constant : Label → String
  | optional => "LABEL_OPTIONAL"
  | required => "LABEL_REQUIRED"
  | repeated => "LABEL_REPEATED"

/-- Every label. -/
def all : List Label :=
  [optional, required, repeated]

end Label

/-! ## Numbers -/

/-- The largest number that a field may have. It has 29 bits. -/
def maxFieldNumber : Int := 0x1FFFFFFF

/-- A field number that a schema may use: positive, of 29 bits, outside the block that is kept for
implementations. -/
def isFieldNumber (number : Int32) : Bool :=
  1 ≤ number.toInt && number.toInt ≤ maxFieldNumber
    && !(19000 ≤ number.toInt && number.toInt ≤ 19999)

end SchemaLayout
