import SchemaLayout.CommandLine.Error
import SchemaLayout.Declaration.Reading
import SchemaLayout.Schema.Assembly

/-!
# Loading

Reads the files that a command names and puts the schema together. The table of defaults comes first,
so whatever is wrong with it is reported before the schema is looked at. `read` gives the text of a path
or the reason why there is none; it may act in any monad.
-/

namespace SchemaLayout.Load

variable {m : Type → Type} [Monad m]

/-- Reads a path and decodes its text. -/
def document {α : Type} (read : String → m (Except String String)) (decode : String → Option α)
    (path : String) : ExceptT CommandError m α := do
  match ← read path with
  | .error reason => throw (.unreadable path reason)
  | .ok source =>
    match decode source with
    | some value => return value
    | none => throw (.notDocument path)

/-- The configuration of a command. -/
def config (read : String → m (Except String String)) (invocation : Invocation) :
    ExceptT CommandError m Config :=
  match invocation.defaults with
  | some path => return { defaults := ← document read DefaultsTable.ofText path }
  | none => return {}

/-- The schema of a command. -/
def schema (read : String → m (Except String String)) (config : Config) (invocation : Invocation) :
    ExceptT CommandError m Schema := do
  let set ← document read FileSet.ofText invocation.set
  match Schema.ofFiles config set.file with
  | .ok schema => return schema
  | .error cause => throw (.schema cause)

end SchemaLayout.Load
