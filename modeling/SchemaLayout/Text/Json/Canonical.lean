import SchemaLayout.Text.Json.Real

/-!
# Canonical documents

The form in which free values are kept: every object sorted by key, each key once, and every real
number spelled in the shortest way.
-/

namespace SchemaLayout.Json

/-- Puts a member in place by its key; of two equal keys the one that is there stays. -/
def insertMember (member : String × Json) : List (String × Json) → List (String × Json)
  | [] => [member]
  | head :: rest =>
    if member.1 < head.1 then member :: head :: rest
    else if member.1 = head.1 then head :: rest
    else head :: insertMember member rest

mutual

/-- Sorts the members of every object by key, keeps the last value of each key and respells real
numbers. -/
def canonical : Json → Json
  | .real spelling => .real ((respell? spelling).getD spelling)
  | .array items => .array (canonicalItems items)
  | .object members => .object (canonicalMembers members)
  | other => other

/-- The canonical forms of the items of an array. -/
def canonicalItems : List Json → List Json
  | [] => []
  | item :: rest => canonical item :: canonicalItems rest

/-- The canonical members of an object: the later ones are placed first, so they win. -/
def canonicalMembers : List (String × Json) → List (String × Json)
  | [] => []
  | (key, value) :: rest => insertMember (key, canonical value) (canonicalMembers rest)

end

end SchemaLayout.Json
