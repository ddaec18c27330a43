import SchemaLayout.Name
import SchemaLayout.Text.Lowercase

/-!
# Entries of name tables

A name table says which names belong to the numbers of a message or enum, and which names and
numbers are reserved.
-/

namespace SchemaLayout

/-- One entry of a name table. -/
inductive NameEntry where
  | same (number : Int32) (name : String)
  | standard (number : Int32) (name : String)
  | unique (number : Int32) (name json : String)
  | group (number : Int32) (name : String)
  | aliased (number : Int32) (name : String) (aliases : List String)
  | reservedName (name : String)
  /-- A range of reserved numbers; both ends belong to it. -/
  | reservedNumbers (first last : Int32)
  deriving DecidableEq, Inhabited

namespace NameEntry

/-- The name of an entry's kind. -/
def kind : NameEntry → String
  | same .. => "same"
  | standard .. => "standard"
  | unique .. => "unique"
  | group .. => "group"
  | aliased .. => "aliased"
  | reservedName _ => "reserved_name"
  | reservedNumbers .. => "reserved_numbers"

/-- The number that an entry names. -/
def number? : NameEntry → Option Int32
  | same number _ | standard number _ | unique number _ _ | group number _ | aliased number _ _ =>
    some number
  | reservedName _ | reservedNumbers _ _ => none

/-- The declared name of the number. -/
def name? : NameEntry → Option String
  | same _ name | standard _ name | unique _ name _ | group _ name | aliased _ name _ => some name
  | reservedName _ | reservedNumbers _ _ => none

/-- The JSON name of the number: `Name.json` of the declared name for `standard`. That of a group is its
message's name in lower case. -/
def jsonName? : NameEntry → Option String
  | same _ name | aliased _ name _ => some name
  | standard _ name => some (Name.json name)
  | unique _ _ json => some json
  | group _ name => some (lowercase name)
  | reservedName _ | reservedNumbers _ _ => none

end NameEntry

end SchemaLayout
