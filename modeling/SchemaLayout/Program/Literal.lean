import SchemaLayout.Program.Group
import SchemaLayout.Text.Quoted

/-!
# Literals

A program as a quoted literal that can be pasted into source code: zero, quote and backslash have
short escapes, every other ASCII character that is not printable is spelled by its code, and
characters beyond ASCII, which only names hold, stand for themselves.
-/

namespace SchemaLayout.Program

/-- One unit inside the quotes. -/
def literalUnit (unit : Char) : List Char :=
  if unit = '\x00' then ['\\', '0']
  else if unit = '\\' ∨ unit = '"' then ['\\', unit]
  else if unit.toNat < 0x20 ∨ unit.toNat = 0x7F then Quoted.codeEscape unit
  else [unit]

/-- The literal of a program: each `literalUnit` in double quotes. -/
def literal (program : Program) : List Char :=
  '"' :: program.flatMap literalUnit ++ ['"']

end SchemaLayout.Program
