import SchemaLayout.Text.Quoted

/-!
# Program errors

What can be wrong when a program is written or read.
-/

namespace SchemaLayout

/-- Why a program cannot be written or read. -/
inductive ProgramError where
  | unsupportedFormat (format : Nat)
  | unsupportedLayoutVersion (version : Nat)
  | unexpectedEnd
  | invalidOpcode (opcode : Nat)
  | invalidUnit (unit : Char)
  | overflow (value width : Nat)
  | int32Overflow (value : Nat)
  | unknownFieldType (tag : Nat)
  | invalidFieldMode (bits : Nat)
  | trailingData (fields : Nat)
  deriving DecidableEq

/-- The code of an error, which says what is wrong but not with what. -/
def ProgramError.code : ProgramError → String
  | unsupportedFormat _ => "UnsupportedFormat"
  | unsupportedLayoutVersion _ => "UnsupportedLayoutVersion"
  | unexpectedEnd => "UnexpectedEnd"
  | invalidOpcode _ => "InvalidOpcode"
  | invalidUnit _ => "InvalidUnit"
  | overflow _ _ => "Overflow"
  | int32Overflow _ => "Int32Overflow"
  | unknownFieldType _ => "UnknownFieldType"
  | invalidFieldMode _ => "InvalidFieldMode"
  | trailingData _ => "TrailingData"

/-- The text of an error. -/
def ProgramError.message : ProgramError → String
  | unsupportedFormat format => "unsupported program format " ++ toString format
  | unsupportedLayoutVersion version => "unsupported layout version " ++ toString version
  | unexpectedEnd => "unexpected end of program"
  | invalidOpcode opcode => "invalid opcode " ++ toString opcode
  | invalidUnit unit => "unit " ++ Quoted.char unit ++ " is not a 7-bit group"
  | overflow value width =>
    "value " ++ toString value ++ " does not fit in " ++ toString width ++ " groups"
  | int32Overflow value => "value " ++ toString value ++ " does not fit in 32 bits"
  | unknownFieldType tag => "unknown field type tag " ++ toString tag
  | invalidFieldMode bits => "invalid field mode bits 0x" ++ String.ofList (Quoted.hexDigits bits)
  | trailingData fields => "trailing data after " ++ toString fields ++ " fields"

end SchemaLayout
