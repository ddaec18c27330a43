import SchemaLayout.Text.Json.Canonical

/-!
# Decoding documents

Readers of typed values. A decoder is given the number of arrays and objects that it may still enter
(`room`); a value that nests deeper is refused, so every decoder ends. What a record does not know is
ignored, however deep it nests.

A record is an object, or an array of its first members in order. A known member may stand in an
object once.
-/

namespace SchemaLayout.Json

/-- How many arrays and objects a document may nest. -/
def nestingLimit : Nat := 127

/-- Reads a value, entering at most `room` arrays and objects one inside the other. -/
abbrev Decoder (α : Type) := (room : Nat) → Json → Option α

namespace Decoder

/-! ## Simple values -/

/-- A text. -/
def text : Decoder String
  | _, .text content => some content
  | _, _ => none

/-- A truth value. -/
def bool : Decoder Bool
  | _, .bool value => some value
  | _, _ => none

/-- An integer of 32 bits with sign. -/
def int32 : Decoder Int32
  | _, .int n => if -0x80000000 ≤ n ∧ n ≤ 0x7FFFFFFF then some (Int32.ofInt n) else none
  | _, _ => none

/-- A value that may be null. -/
def optional {α : Type} (decode : Decoder α) : Decoder (Option α)
  | _, .null => some none
  | room, document => (decode room document).map some

/-- A list of values. -/
def list {α : Type} (decode : Decoder α) : Decoder (List α)
  | room + 1, .array items => items.mapM (decode room)
  | _, _ => none

/-- One of a set of names, alone or as the only key of an object that holds null. -/
def oneOf {α : Type} (names : List (String × α)) : Decoder α
  | _, .text name => names.lookup name
  | _ + 1, .object [(name, .null)] => names.lookup name
  | _, _ => none

/-! ## Free values -/

mutual

/-- Any value that can be read, as it stands. -/
def readable (room : Nat) (document : Json) : Bool :=
  match document, room with
  | .unreadable, _ => false
  | .real spelling, _ => (respell? spelling).isSome
  | .array items, room + 1 => readableItems room items
  | .object members, room + 1 => readableMembers room members
  | .array _, 0 => false
  | .object _, 0 => false
  | _, _ => true

/-- Every item can be read. -/
def readableItems (room : Nat) (items : List Json) : Bool :=
  match items with
  | [] => true
  | item :: rest => readable room item && readableItems room rest

/-- Every member can be read. -/
def readableMembers (room : Nat) (members : List (String × Json)) : Bool :=
  match members with
  | [] => true
  | (_, value) :: rest => readable room value && readableMembers room rest

end

/-- Any value, in canonical form. -/
def free : Decoder Json := fun room document =>
  if readable room document then some document.canonical else none

end Decoder

/-! ## Records -/

/-- The members of a record whose known members are `names`. -/
def members? (names : List String) : Json → Option (List (String × Json))
  | .object members =>
    if names.all fun name => (members.filter (·.1 == name)).length ≤ 1 then some members else none
  | .array items => if items.length ≤ names.length then some (names.zip items) else none
  | _ => none

/-- The member `name` of a record, or `default` if it is left out. -/
def member {α : Type} (members : List (String × Json)) (name : String) (room : Nat)
    (decode : Decoder α) (default : α) : Option α :=
  match members.lookup name with
  | some document => decode room document
  | none => some default

/-- The member `name` of a record, which must be there. -/
def requiredMember {α : Type} (members : List (String × Json)) (name : String) (room : Nat)
    (decode : Decoder α) : Option α :=
  (members.lookup name).bind (decode room)

end SchemaLayout.Json
