import SchemaLayout.Text.CharacterClass

/-!
# Quoted characters and texts

How messages and listings show a character or a text so that every part of it can be seen: between
quotes, with the usual short escapes, and with `\u{hex}` for what has no visible form of its own or
would attach to the quote in front of it.
-/

namespace SchemaLayout.Quoted

open CharacterClass

/-- The lower-case hexadecimal digits of a number. -/
def hexDigits (n : Nat) : List Char :=
  Nat.toDigits 16 n

/-- The escape that spells a code point. -/
def codeEscape (c : Char) : List Char :=
  ['\\', 'u', '\x7b'] ++ hexDigits c.toNat ++ ['\x7d']

/-- A character shows itself when it is visible and stands by itself. -/
def showsItself (c : Char) : Bool :=
  if c.toNat < 0x80 then ' ' ≤ c && c ≤ '~'
  else !attaching.has c && !invisible.has c

/-- One character inside quotes, where `quote` is the mark around them. -/
def escape (quote c : Char) : List Char :=
  if c = '\x00' then ['\\', '0']
  else if c = '\t' then ['\\', 't']
  else if c = '\n' then ['\\', 'n']
  else if c = '\r' then ['\\', 'r']
  else if c = '\\' then ['\\', '\\']
  else if c = quote then ['\\', quote]
  else if showsItself c then [c]
  else codeEscape c

/-- A character between single quotes. -/
def char (c : Char) : String :=
  String.ofList ('\'' :: escape '\'' c ++ ['\''])

/-- A text between double quotes. -/
def text (source : String) : String :=
  String.ofList ('"' :: source.toList.flatMap (escape '"') ++ ['"'])

end SchemaLayout.Quoted
