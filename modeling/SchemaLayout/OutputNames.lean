import SchemaLayout.Data.OrderedMap

/-!
# Names of outputs

The names that outputs have taken. Each may be taken once.
-/

namespace SchemaLayout

/-- The names that are taken, in the order in which they were. -/
structure OutputNames where
  names : OrderedMap Unit := .empty
  deriving Inhabited

/-- An output name that is taken already. -/
structure DuplicateName where
  name : String
  deriving DecidableEq

/-- The text of the error. -/
def DuplicateName.message (error : DuplicateName) : String :=
  "duplicate output name `" ++ error.name ++ "`"

namespace OutputNames

/-- No names. -/
def empty : OutputNames := {}

/-- The name is taken. -/
def contains (taken : OutputNames) (name : String) : Bool :=
  taken.names.contains name

/-- The number of names. -/
def size (taken : OutputNames) : Nat :=
  taken.names.size

/-- The names in the order in which they were taken. -/
def toList (taken : OutputNames) : List String :=
  taken.names.keys

/-- Takes a name, if it is not there already. -/
def insert (taken : OutputNames) (name : String) : Except DuplicateName OutputNames :=
  if taken.contains name then .error ⟨name⟩ else .ok ⟨taken.names.insert name ()⟩

end OutputNames

end SchemaLayout
