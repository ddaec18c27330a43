import SchemaLayout.Schema.Basic

/-!
# Registration

Before the elements of a file are added, its declarations are gone through from top to bottom: every type
enters its name, and every condition on a declaration is checked where the declaration stands. The first
name that is taken and the first condition that fails, whichever comes first, is the fault of the file.
-/

namespace SchemaLayout

/-! ## Conditions -/

namespace MessageDecl

/-- The oneof at `place` was made up for a single field: it has one member, which is optional. -/
def isSynthetic (message : MessageDecl) (place : Nat) : Bool :=
  match message.field.filter fun field => field.oneofIndex = some (Int32.ofNat place) with
  | [member] => member.proto3Optional
  | _ => false

/-- For each oneof, whether it `isSynthetic`. -/
def synthetic (message : MessageDecl) : List Bool :=
  (List.range message.oneofDecl.length).map message.isSynthetic

/-- No oneof that was written comes after one that `isSynthetic`. -/
def syntheticLast (message : MessageDecl) : Bool :=
  (message.synthetic.dropWhile (!·)).all id

/-- The number that two fields have, if there is one; of several, the smallest. -/
def repeatedNumber? (message : MessageDecl) : Option Int32 :=
  let numbers := (message.field.map (·.number)).mergeSort (· ≤ ·)
  ((numbers.zip numbers.tail).find? fun (number, next) => number = next).map (·.1)

end MessageDecl

/-- The place of a field's oneof, if it is one of `count` oneofs. -/
def FieldDecl.oneofPlace? (field : FieldDecl) (count : Nat) : Option Nat :=
  field.oneofIndex.bind fun index =>
    if 0 ≤ index.toInt ∧ index.toInt < count then some index.toInt.toNat else none

/-! ## Steps -/

/-- One step through the declarations of a file: a key is entered, or a condition must hold. -/
inductive Registration where
  | enter (key : String) (definition : Definition)
  | require (condition : Bool) (fault : Fault)

namespace Registration

/-- Takes a step. A key that is there already cannot be entered. -/
def take (directory : Directory) : Registration → Except Fault Directory
  | enter key definition =>
    if (directory.types.find? key).isSome then .error (.registeredTwice key)
    else .ok (directory.insertType key definition)
  | require condition fault => if condition then .ok directory else .error fault

/-- Takes `steps` until one fails. -/
def takeAll (steps : List Registration) (directory : Directory) : Except Fault Directory :=
  steps.foldlM take directory

/-- The step for the oneof of a field: if it has a `oneofIndex`, it must have a `oneofPlace?`. -/
def ofOneofIndex (count : Nat) (field : FieldDecl) : List Registration :=
  match field.oneofIndex with
  | some index =>
    [require (field.oneofPlace? count).isSome (.oneofIndex field.name index count)]
  | none => []

/-- The steps for a field of the message `scope`. -/
def ofField (scope : String) (count : Nat) (field : FieldDecl) : List Registration :=
  ofOneofIndex count field ++
    [require (isFieldNumber field.number)
      (.fieldNumber (Name.qualify scope field.name) field.number)]

/-- The steps for a message and its fields, before those for what is nested in it. -/
def ofMessageHead (fullName : String) (id : MessageId) (message : MessageDecl) :
    List Registration :=
  enter (Name.key fullName) (.message id)
  :: require (!message.isMapEntry || message.field.length = 2)
      (.mapEntryShape fullName message.field.length)
  :: require message.syntheticLast (.realOneofAfterSynthetic fullName)
  :: message.field.flatMap (ofField fullName message.oneofDecl.length)
  ++ (match message.repeatedNumber? with
    | some number => [require false (.repeatedNumber fullName number)]
    | none => [])

end Registration

end SchemaLayout
