import SchemaLayout.Text.Json

/-!
# Printing JSON

The compact text of a document. Each printer puts its text in front of what follows, so a whole
document is printed in one pass. `Json.parse` reads it back.
-/

namespace SchemaLayout.Json

/-- A hexadecimal digit. -/
def hexDigit (n : Nat) : Char :=
  if n < 10 then Char.ofNat ('0'.toNat + n) else Char.ofNat ('a'.toNat + (n - 10))

/-- A character inside quotes: quote, backslash and control characters are escaped. -/
def printChar (c : Char) (rest : List Char) : List Char :=
  match c with
  | '"' => '\\' :: '"' :: rest
  | '\\' => '\\' :: '\\' :: rest
  | '\x08' => '\\' :: 'b' :: rest
  | '\x09' => '\\' :: 't' :: rest
  | '\x0a' => '\\' :: 'n' :: rest
  | '\x0c' => '\\' :: 'f' :: rest
  | '\x0d' => '\\' :: 'r' :: rest
  | c =>
    if c.toNat < 0x20 then
      '\\' :: 'u' :: '0' :: '0' :: hexDigit (c.toNat / 16) :: hexDigit (c.toNat % 16) :: rest
    else c :: rest

/-- A text in quotes. -/
def printText (content : String) (rest : List Char) : List Char :=
  '"' :: content.toList.foldr printChar ('"' :: rest)

mutual

/-- The text of a document in front of `rest`. -/
def print : Json → List Char → List Char
  | .null, rest => 'n' :: 'u' :: 'l' :: 'l' :: rest
  | .bool true, rest => 't' :: 'r' :: 'u' :: 'e' :: rest
  | .bool false, rest => 'f' :: 'a' :: 'l' :: 's' :: 'e' :: rest
  | .int n, rest =>
    (if n < 0 then ['-'] else []) ++ Nat.toDigits 10 n.natAbs ++ rest
  | .real spelling, rest => spelling.toList ++ rest
  | .text content, rest => printText content rest
  | .unreadable, rest => '"' :: '\\' :: 'u' :: 'd' :: '8' :: '0' :: '0' :: '"' :: rest
  | .array [], rest => '[' :: ']' :: rest
  | .array (item :: items), rest => '[' :: print item (printItems items (']' :: rest))
  | .object [], rest => '{' :: '}' :: rest
  | .object ((key, value) :: members), rest =>
    '{' :: printText key (':' :: print value (printMembers members ('}' :: rest)))

/-- The items after the first, each after a comma. -/
def printItems : List Json → List Char → List Char
  | [], rest => rest
  | item :: items, rest => ',' :: print item (printItems items rest)

/-- The members after the first, each after a comma. -/
def printMembers : List (String × Json) → List Char → List Char
  | [], rest => rest
  | (key, value) :: members, rest =>
    ',' :: printText key (':' :: print value (printMembers members rest))

end

/-- The compact text of a document. -/
def render (document : Json) : String :=
  String.ofList (document.print [])

end SchemaLayout.Json
