import SchemaLayout.Data.OrderedMap
import SchemaLayout.Schema.Node

/-!
# Directories

What the names of a schema stand for. Files go by their declared names and types by their keys, which
are full names with a dot in front; the two do not mix.
-/

namespace SchemaLayout

/-- What the name of a type stands for. -/
inductive Definition where
  | message (id : MessageId)
  | enum (id : EnumId)
  | service (id : ServiceId)
  deriving DecidableEq, Inhabited

/-- What a name stands for: a file, or the `Definition` of a type. -/
inductive Entry where
  | file (id : FileId)
  | type (definition : Definition)
  deriving DecidableEq, Inhabited

/-- The names of a schema, files and types apart, in the order in which they were entered. -/
structure Directory where
  files : OrderedMap FileId := .empty
  types : OrderedMap Definition := .empty
  deriving Inhabited

namespace Directory

/-- The directory without names. -/
def empty : Directory := {}

/-! ## Entering names -/

/-- Enters a file. -/
def insertFile (directory : Directory) (name : String) (id : FileId) : Directory :=
  { directory with files := directory.files.insert name id }

/-- Enters a type. -/
def insertType (directory : Directory) (key : String) (definition : Definition) : Directory :=
  { directory with types := directory.types.insert key definition }

/-! ## Looking names up -/

/-- The file of a name. -/
def file? (directory : Directory) (name : String) : Option FileId :=
  directory.files.find? name

/-- The message of `key`, if that is not the key of an enum or a service. -/
def message? (directory : Directory) (key : String) : Option MessageId :=
  match directory.types.find? key with
  | some (.message id) => some id
  | _ => none

/-- The enum of `key`, if that is not the key of a message or a service. -/
def enum? (directory : Directory) (key : String) : Option EnumId :=
  match directory.types.find? key with
  | some (.enum id) => some id
  | _ => none

/-- The service of `key`, if that is not the key of a message or an enum. -/
def service? (directory : Directory) (key : String) : Option ServiceId :=
  match directory.types.find? key with
  | some (.service id) => some id
  | _ => none

/-- What a name stands for: one that starts with a dot is the key of a type, any other that of a file. -/
def find? (directory : Directory) (name : String) : Option Entry :=
  match name.toList with
  | '.' :: _ => (directory.types.find? name).map .type
  | _ => (directory.file? name).map .file

/-- The name stands for something: `find?` has a result. -/
def contains (directory : Directory) (name : String) : Bool :=
  (directory.find? name).isSome

end Directory

end SchemaLayout
