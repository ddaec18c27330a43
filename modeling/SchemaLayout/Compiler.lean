import SchemaLayout.Analysis.Storage
import SchemaLayout.Config
import SchemaLayout.Layout.OfMessage
import SchemaLayout.NameTable.OfSchema

/-!
# Compiler

Everything that is made of a message: its layouts and their programs, the program of its names, and how
it is stored. A session remembers the messages that it has compiled and what it has found out on the
way. A message that cannot be compiled is not remembered.
-/

namespace SchemaLayout

/-! ## Results -/

/-- What a message was compiled to. -/
structure CompiledMessage where
  id : MessageId
  fullName : String
  layout : MessageLayout
  /-- The programs for the chosen targets, in the order of the choice. -/
  programs : List (Target × Program)
  names : Program
  storage : Storage.Decision
  deriving DecidableEq, Inhabited

/-- The program for `target`, if that was chosen. -/
def CompiledMessage.programFor? (compiled : CompiledMessage) (target : Target) : Option Program :=
  compiled.programs.lookup target

/-- What an enum was compiled to. -/
structure CompiledEnum where
  id : EnumId
  fullName : String
  names : Program
  deriving DecidableEq, Inhabited

/-! ## Sessions -/

/-- What a compiler remembers: the answers of both analyses, and the `messages` compiled so far. -/
structure Session where
  initialization : Initialization.Memo := ∅
  storage : Storage.Memo := ∅
  messages : Std.HashMap MessageId CompiledMessage := ∅

namespace Session

/-- A session at its start. -/
def start : Session := {}

/-- The number of messages compiled so far. -/
def cached (session : Session) : Nat :=
  session.messages.size

end Session

namespace Compiler

/-- A step of a session that may fail; what the session remembers is kept in any case. -/
abbrev Compiling := EStateM ProgramError Session

/-- The layout of a message, with the session's `initialization`. -/
def layout (schema : Schema) (id : MessageId) : Compiling MessageLayout :=
  modifyGet fun session =>
    let (layout, initialization) := (schema.layout id).run session.initialization
    (layout, { session with initialization })

/-- How a message is stored, with the session's `storage`. -/
def storage (config : Config) (schema : Schema) (id : MessageId) : Compiling Storage.Decision :=
  modifyGet fun session =>
    let (decision, storage) := (Storage.decide schema config.costThreshold id).run session.storage
    (decision, { session with storage })

/-- What a message is compiled to, with the `programs` of its `layout`. -/
def assembled (config : Config) (schema : Schema) (id : MessageId) (layout : MessageLayout)
    (programs : PerTarget Program) (storage : Storage.Decision) : CompiledMessage where
  id := id
  fullName := (schema.message id).fullName
  layout := layout
  programs := config.targets.map fun target => (target, programs.get target)
  names := schema.messageNameProgram id
  storage := storage

/-- Compiles a message that the session does not keep yet. Both its layouts must have a program, whichever
targets are chosen; a message that fails is not kept. -/
def compileNew (config : Config) (schema : Schema) (id : MessageId) : Compiling CompiledMessage := do
  let layout ← layout schema id
  let programs ← MonadExcept.ofExcept layout.encode
  let storage ← storage config schema id
  let compiled := assembled config schema id layout programs storage
  modify fun session => { session with messages := session.messages.insert id compiled }
  return compiled

/-- Compiles a message: the session keeps it, or it is `compileNew`. -/
def compileMessage (config : Config) (schema : Schema) (id : MessageId) : Compiling CompiledMessage := do
  if let some compiled := (← get).messages[id]? then return compiled
  compileNew config schema id

/-- Compiles every message with `compileMessage`, up to the first that cannot be compiled. -/
def compileAll (config : Config) (schema : Schema) : Compiling (List CompiledMessage) :=
  schema.messageIds.mapM (compileMessage config schema)

/-- Compiles an enum, which cannot fail and is not kept in a `Session`. -/
def compileEnum (schema : Schema) (id : EnumId) : CompiledEnum where
  id := id
  fullName := (schema.enum id).fullName
  names := schema.enumNameProgram id

end Compiler

end SchemaLayout
