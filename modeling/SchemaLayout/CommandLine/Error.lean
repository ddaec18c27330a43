import SchemaLayout.CommandLine.Arguments
import SchemaLayout.Program.Error
import SchemaLayout.Schema.Fault

/-!
# Errors of commands

Why a command has no listing: its line, its files, the schema in them, a message that does not fit into
a program, or a type that is not there.
-/

namespace SchemaLayout

/-- Why a command has no listing. -/
inductive CommandError where
  | usage (cause : UsageError)
  | unreadable (path reason : String)
  | notDocument (path : String)
  | schema (cause : SchemaError)
  | program (cause : ProgramError)
  | unknownType (name : String)
  deriving DecidableEq

namespace CommandError

/-- Why a file that does not exist cannot be read. -/
def noSuchFile : String := "No such file or directory (os error 2)"

/-- The text of an error. -/
def message : CommandError → String
  | usage cause => "usage: " ++ cause.code
  | unreadable path reason => "failed to read '" ++ path ++ "': " ++ reason
  | notDocument path => "'" ++ path ++ "' is not valid JSON"
  | schema cause => cause.message
  | program cause => cause.message
  | unknownType name => "no message or enum named `" ++ name ++ "`"

end CommandError

end SchemaLayout
