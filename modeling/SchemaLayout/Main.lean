import SchemaLayout.CommandLine.Report

/-!
# Program

The command line program: follows its arguments and prints the report or what is wrong.
-/

open SchemaLayout

/-- The text of a path, where a dash stands for standard input. -/
def readSource (path : String) : IO (Except String String) := do
  try
    if path = "-" then
      return .ok (← (← IO.getStdin).readToEnd)
    else
      return .ok (← IO.FS.readFile path)
  catch
    | .noFileOrDirectory .. => return .error CommandError.noSuchFile
    | error => return .error (toString error)

/-- Reports an error. -/
def fail (error : CommandError) : IO UInt32 := do
  IO.eprintln ("error: " ++ error.message)
  match error with
  | .usage .helpAsked => return 0
  | .usage _ => return 2
  | _ => return 1

/-- Follows the arguments of the program. -/
def main (arguments : List String) : IO UInt32 := do
  match Arguments.parse arguments with
  | .error cause => fail (.usage cause)
  | .ok invocation =>
    let terminal ← (← IO.getStdout).isTty
    match ← (Report.run readSource terminal invocation).run with
    | .ok report =>
      IO.print report
      return 0
    | .error error => fail error
