/-!
# Names

The names that are derived from declared ones: the full name of an element inside its scope, the key
under which references find it, and the JSON name of a field.
-/

namespace SchemaLayout.Name

/-- The full name of `name` inside `scope`; the outermost scope is empty and adds no dot. -/
def qualify (scope name : String) : String :=
  if scope = "" then name else scope ++ "." ++ name

/-- The key of a full name: `fullName` with a dot in front, as references spell it. -/
def key (fullName : String) : String :=
  "." ++ fullName

/-- The key that a reference means: `reference` itself if it starts with a dot, else its `key`. -/
def keyOf (reference : String) : String :=
  match reference.toList with
  | '.' :: _ => reference
  | _ => key reference

/-- The characters of a JSON name: underscores go, and the letter after one is capitalised. -/
def camelCase (capital : Bool) : List Char → List Char
  | [] => []
  | '_' :: rest => camelCase true rest
  | c :: rest => (if capital then c.toUpper else c) :: camelCase false rest

/-- The JSON name that a field gets when it declares none: its `camelCase`. Only ASCII letters are capitalised.
-/
def json (name : String) : String :=
  String.ofList (camelCase false name.toList)

end SchemaLayout.Name
