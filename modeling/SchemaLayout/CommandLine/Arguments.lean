import SchemaLayout.Text.Palette

/-!
# Arguments

The grammar of the command line. A line names a command, then gives it a schema and options:

  `layout|names SET [-m NAME] [--defaults FILE] [--literal] [--color WHEN] [-v]…`

An option that takes a value takes the rest of its own word, behind `=` if it is a long one, or the word
after it. A value that stands in a word of its own is judged only when the next option is met, so a word
that is no argument at all is reported before it. Behind `--` every word is taken as it is.
-/

namespace SchemaLayout

/-! ## Lines and errors -/

/-- What is to be listed. -/
inductive Command where
  | layout
  | names
  deriving DecidableEq, Inhabited

namespace Command

/-- The word for a command. -/
def display : Command → String
  | layout => "layout"
  | names => "names"

/-- The command that a word stands for. -/
def ofWord? (word : String) : Option Command :=
  [layout, names].find? (·.display = word)

end Command

/-- Whether a listing is coloured. -/
inductive ColorChoice where
  | auto
  | always
  | never
  deriving DecidableEq, Inhabited

namespace ColorChoice

/-- The choice that a word stands for. -/
def ofWord? : String → Option ColorChoice
  | "auto" => some auto
  | "always" => some always
  | "never" => some never
  | _ => none

/-- The listing is coloured, where `terminal` says whether it goes to a terminal. -/
def isColored (choice : ColorChoice) (terminal : Bool) : Bool :=
  match choice with
  | auto => terminal
  | always => true
  | never => false

end ColorChoice

/-- What a command line asks for. -/
structure Invocation where
  command : Command
  set : String
  type : Option String := none
  defaults : Option String := none
  literal : Bool := false
  color : ColorChoice := .auto
  verbosity : Nat := 0
  deriving DecidableEq, Inhabited

/-- Why a command line cannot be followed. A line may ask for help instead. -/
inductive UsageError where
  | nothingAsked
  | helpAsked
  | unknownCommand
  | missingSet
  | unknownArgument
  | badValue
  | repeatedOption
  | unwantedValue
  deriving DecidableEq, Inhabited

/-- The code of an error. -/
def UsageError.code : UsageError → String
  | nothingAsked => "DisplayHelpOnMissingArgumentOrSubcommand"
  | helpAsked => "DisplayHelp"
  | unknownCommand => "InvalidSubcommand"
  | missingSet => "MissingRequiredArgument"
  | unknownArgument => "UnknownArgument"
  | badValue => "InvalidValue"
  | repeatedOption => "ArgumentConflict"
  | unwantedValue => "TooManyValues"

namespace Arguments

/-! ## Options -/

/-- What a value can be given for. -/
inductive Slot where
  | set
  | type
  | defaults
  | color
  deriving DecidableEq

/-- What a word with a dash can stand for. -/
inductive Flag where
  | value (slot : Slot)
  | literal
  | verbose
  | help

/-- The flag with a long name. -/
def longFlag? : String → Option Flag
  | "message" => some (.value .type)
  | "defaults" => some (.value .defaults)
  | "color" => some (.value .color)
  | "literal" => some .literal
  | "help" => some .help
  | _ => none

/-- The flag with a short name. -/
def shortFlag? : Char → Option Flag
  | 'm' => some (.value .type)
  | 'v' => some .verbose
  | 'h' => some .help
  | _ => none

/-! ## States -/

/-- What was given so far. A value that is pending has not been judged yet; it may be missing still. -/
structure State where
  set : Option String := none
  type : Option String := none
  defaults : Option String := none
  color : Option ColorChoice := none
  literal : Bool := false
  verbosity : Nat := 0
  pending : Option (Slot × Option String) := none
  /-- The word for the schema was met. -/
  hasSet : Bool := false

/-- The word of a path, which is not empty. -/
def path (value : String) : Except UsageError String :=
  if value = "" then .error .badValue else .ok value

/-- Puts a value where it belongs. No option may be given twice, whatever the value. -/
def store (state : State) : Slot → String → Except UsageError State
  | .set, value => return { state with set := some (← path value) }
  | .type, value =>
    if state.type.isSome then .error .repeatedOption else .ok { state with type := some value }
  | .defaults, value =>
    if state.defaults.isSome then .error .repeatedOption
    else return { state with defaults := some (← path value) }
  | .color, value =>
    if state.color.isSome then .error .repeatedOption
    else match ColorChoice.ofWord? value with
      | some choice => .ok { state with color := some choice }
      | none => .error .badValue

/-- Judges the value that is pending, if there is one. -/
def settle (state : State) : Except UsageError State :=
  match state.pending with
  | none => .ok state
  | some (_, none) => .error .badValue
  | some (slot, some value) => store { state with pending := none } slot value

/-- Starts an option that takes a value, with the value if its own word has one. -/
def startOption (state : State) (slot : Slot) (attached : Option String) :
    Except UsageError State := do
  let state ← settle state
  match attached with
  | some value => store state slot value
  | none => return { state with pending := some (slot, none) }

/-- Follows a flag that takes no value. -/
def setFlag (state : State) (flag : Flag) : Except UsageError State := do
  let state ← settle state
  match flag with
  | .literal => if state.literal then throw .repeatedOption else return { state with literal := true }
  | .verbose => return { state with verbosity := min (state.verbosity + 1) 255 }
  | .help => throw .helpAsked
  | .value _ => return state

/-! ## Words -/

/-- Reads a long option without its dashes. -/
def readLong (state : State) (word : List Char) : Except UsageError State :=
  let name := String.ofList (word.takeWhile (· ≠ '='))
  let attached :=
    match word.dropWhile (· ≠ '=') with
    | [] => none
    | _ :: value => some (String.ofList value)
  match longFlag? name, attached with
  | some (.value slot), attached => startOption state slot attached
  | some flag, none => setFlag state flag
  | some _, some _ => .error .unwantedValue
  | none, _ => .error .unknownArgument

/-- Reads short options that stand in one word. -/
def readShort (state : State) : List Char → Except UsageError State
  | [] => .ok state
  | name :: rest =>
    match shortFlag? name, rest with
    | some (.value slot), [] => startOption state slot none
    | some (.value slot), '=' :: value => startOption state slot (some (String.ofList value))
    | some (.value slot), value => startOption state slot (some (String.ofList value))
    | some flag, rest => do readShort (← setFlag state flag) rest
    | none, _ => .error .unknownArgument

/-- Reads the word for the schema. There is only one. -/
def readSet (state : State) (word : String) : Except UsageError State := do
  if state.hasSet then throw .unknownArgument
  let state ← settle state
  return { state with pending := some (.set, some word), hasSet := true }

/-- Reads a word that is no option: the value that an option waits for, or the schema. -/
def readWord (state : State) (word : String) : Except UsageError State :=
  match state.pending with
  | some (slot, none) => .ok { state with pending := some (slot, some word) }
  | _ => readSet state word

/-- Reads the words after the command. -/
def readAll (state : State) : List String → Except UsageError State
  | [] => settle state
  | word :: rest =>
    match word.toList with
    | ['-', '-'] => do settle (← rest.foldlM readSet state)
    | '-' :: '-' :: long => do readAll (← readLong state long) rest
    | '-' :: c :: short => do readAll (← readShort state (c :: short)) rest
    | _ => do readAll (← readWord state word) rest

/-! ## Lines -/

/-- Reads the words of a command. -/
def ofWords (command : Command) (words : List String) : Except UsageError Invocation := do
  let state ← readAll {} words
  match state.set with
  | none => throw .missingSet
  | some set => return {
      command, set
      type := state.type
      defaults := state.defaults
      literal := state.literal
      color := state.color.getD .auto
      verbosity := state.verbosity
    }

/-- Reads what follows the word `help`: at most one command, `help` among them. -/
def ofHelp : List String → UsageError
  | [] => .helpAsked
  | [word] =>
    if word = "help" || (Command.ofWord? word).isSome then .helpAsked else .unknownCommand
  | _ => .unknownCommand

/-- Reads the short options in front of a command, of which there is only the one for help. -/
def ofShort : List Char → UsageError
  | 'h' :: _ => .helpAsked
  | _ => .unknownArgument

/-- Reads a command line. -/
def parse : List String → Except UsageError Invocation
  | [] => throw .nothingAsked
  | word :: rest =>
    match Command.ofWord? word, word.toList with
    | some command, _ => ofWords command rest
    | none, ['-', '-'] =>
      match rest with
      | [] => throw .nothingAsked
      | next :: _ =>
        if next = "help" || (Command.ofWord? next).isSome then throw .unknownArgument
        else throw .unknownCommand
    | none, '-' :: '-' :: long =>
      if long = "help".toList then throw .helpAsked
      else if "help=".toList.isPrefixOf long then throw .unwantedValue
      else throw .unknownArgument
    | none, '-' :: c :: short => throw (ofShort (c :: short))
    | none, _ => throw (if word = "help" then ofHelp rest else .unknownCommand)

end Arguments

end SchemaLayout
