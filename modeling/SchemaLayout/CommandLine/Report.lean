import SchemaLayout.CommandLine.Load
import SchemaLayout.Compiler
import SchemaLayout.Listing.NameTable
import SchemaLayout.Listing.Plan
import SchemaLayout.Program.Literal

/-!
# Reports

What the commands print: a section for each type, in the order of the schema or for a chosen type alone.
Sections are set apart by empty lines. What is listed is read back from the programs.
-/

namespace SchemaLayout.Report

open Listing (lines)

/-- How a section is to look. -/
structure Style where
  palette : Palette
  literal : Bool

/-- Sections, set apart by empty lines. -/
def joined (sections : List String) : String :=
  String.intercalate "\n" sections

/-- The line that spells a program out, if it is wanted. -/
def literalLine (style : Style) (program : Program) : String :=
  if style.literal then lines ["literal " ++ String.ofList program.literal] else ""

/-! ## Layouts -/

/-- The words for how a message is stored. -/
def storageWords (decision : Storage.Decision) : String :=
  if decision.isOutOfLine then "(out-of-line)"
  else "(inline, cost " ++ toString decision.fieldCost ++ ")"

/-- The part of a section for one target. -/
def targetPart (style : Style) (target : Target) (program : Program) :
    Except ProgramError String := do
  let plan ← LayoutPlan.decode program
  return lines ["", style.palette.dimmed ("; " ++ target.display)]
    ++ Listing.plan style.palette plan ++ literalLine style program

/-- The line of a submessage. -/
def submessageLine (palette : Palette) (entry : Submessage) : String :=
  "M" ++ toString entry.index ++ "  " ++ palette.named entry.typeName ++ "  "
    ++ palette.dimmed (if entry.needsCheck then "check" else "skip")

/-- The part of a section for the submessages, if there are any. -/
def submessagePart (palette : Palette) (entries : List Submessage) : String :=
  if entries = [] then ""
  else lines ("" :: palette.heading "[submessages]" :: entries.map (submessageLine palette))

/-- The section of a message. -/
def messageSection (style : Style) (compiled : CompiledMessage) : Except ProgramError String := do
  let head := style.palette.heading ("message " ++ compiled.fullName) ++ "  "
    ++ style.palette.dimmed (storageWords compiled.storage)
  let parts ← compiled.programs.mapM fun (target, program) => targetPart style target program
  return lines [head] ++ String.join parts
    ++ submessagePart style.palette compiled.layout.submessages

/-- The messages that a command is about. -/
def chosenMessages (schema : Schema) : (type : Option String) → Except CommandError (List MessageId)
  | some name => (schema.findMessage? name).elim (throw (.unknownType name)) fun id => pure [id]
  | none => pure schema.messageIds

/-- Runs a session from its start. -/
def inSession {α : Type} (action : Compiler.Compiling α) : Except CommandError α :=
  match action .start with
  | .ok value _ => .ok value
  | .error cause _ => .error (.program cause)

/-- The report of layouts. -/
def layouts (config : Config) (schema : Schema) (type : Option String) (style : Style) :
    Except CommandError String := do
  let ids ← chosenMessages schema type
  let sections ← inSession (ids.mapM fun id => do
    let compiled ← Compiler.compileMessage config schema id
    MonadExcept.ofExcept (messageSection style compiled))
  return joined sections

/-! ## Names -/

/-- The section of the names of a type. -/
def namesSection (style : Style) (kind fullName : String) (program : Program) :
    Except ProgramError String := do
  let entries ← NameTable.decode program
  return lines [style.palette.heading (kind ++ " " ++ fullName)]
    ++ Listing.nameTable style.palette entries ++ literalLine style program

/-- The messages and enums that a command is about; of two types of one name the message. -/
def chosenTypes (schema : Schema) :
    (type : Option String) → Except CommandError (List MessageId × List EnumId)
  | some name =>
    match schema.findMessage? name, schema.findEnum? name with
    | some id, _ => pure ([id], [])
    | none, some id => pure ([], [id])
    | none, none => throw (.unknownType name)
  | none => pure (schema.messageIds, schema.enumIds)

/-- The report of names. Every message is compiled before the first is listed. -/
def names (config : Config) (schema : Schema) (type : Option String) (style : Style) :
    Except CommandError String := do
  let (messageIds, enumIds) ← chosenTypes schema type
  let messages ← inSession (messageIds.mapM (Compiler.compileMessage config schema))
  let enums := enumIds.map (Compiler.compileEnum schema)
  let sections := messages.map (fun compiled => ("message", compiled.fullName, compiled.names))
    ++ enums.map fun compiled => ("enum", compiled.fullName, compiled.names)
  let texts ← (sections.mapM fun (kind, fullName, program) =>
    namesSection style kind fullName program).mapError .program
  return joined texts

/-! ## Commands -/

/-- Follows an invocation: its report, where `terminal` says whether it goes to a terminal. -/
def run {m : Type → Type} [Monad m] (read : String → m (Except String String)) (terminal : Bool)
    (invocation : Invocation) : ExceptT CommandError m String := do
  let config ← Load.config read invocation
  let schema ← Load.schema read config invocation
  let style : Style :=
    { palette := .of (invocation.color.isColored terminal), literal := invocation.literal }
  let report :=
    match invocation.command with
    | .layout => layouts config schema invocation.type style
    | .names => names config schema invocation.type style
  match report with
  | .ok text => return text
  | .error error => throw error

end SchemaLayout.Report
