import SchemaLayout.Text.Json

/-!
# Reading JSON

`Json.parse` reads one document from a text: strict JSON, with nothing but blanks around it. Each
reader takes the characters that are left and returns what it read with the rest. Arrays and objects
may nest to any depth here; how deep a record may nest is a rule of `Json.Decoder`.
-/

namespace SchemaLayout.Json

/-! ## Blanks and words -/

/-- The four characters that may stand between tokens. -/
def isBlank (c : Char) : Bool :=
  c == ' ' || c == '\n' || c == '\t' || c == '\r'

/-- What is left after the blanks in front. -/
def skipBlanks (cs : List Char) : List Char :=
  cs.dropWhile isBlank

/-- What is left after `word`, if the text starts with it. -/
def afterWord? (word cs : List Char) : Option (List Char) :=
  match word, cs with
  | [], cs => some cs
  | w :: word, c :: cs => if w = c then afterWord? word cs else none
  | _ :: _, [] => none

/-! ## Quoted text -/

/-- The value of a hexadecimal digit of either case. -/
def hexValue? (c : Char) : Option Nat :=
  if '0' ≤ c ∧ c ≤ '9' then some (c.toNat - '0'.toNat)
  else if 'a' ≤ c ∧ c ≤ 'f' then some (c.toNat - 'a'.toNat + 10)
  else if 'A' ≤ c ∧ c ≤ 'F' then some (c.toNat - 'A'.toNat + 10)
  else none

/-- The code that four hexadecimal digits spell. -/
def hexCode? (a b c d : Char) : Option Nat := do
  let a ← hexValue? a
  let b ← hexValue? b
  let c ← hexValue? c
  let d ← hexValue? d
  return ((a * 16 + b) * 16 + c) * 16 + d

/-- The code of an escape that is one character after the backslash. -/
def shortEscape? : Char → Option Nat
  | '"' => some 0x22
  | '\\' => some 0x5C
  | '/' => some 0x2F
  | 'b' => some 0x08
  | 'f' => some 0x0C
  | 'n' => some 0x0A
  | 'r' => some 0x0D
  | 't' => some 0x09
  | _ => none

/-- The codes of a quoted text up to its closing quote, last first in `codes`. Control characters
must be escaped. An escape may name half of a surrogate pair. -/
def quotedCodes (codes : List Nat) : List Char → Option (List Nat × List Char)
  | [] => none
  | '"' :: rest => some (codes.reverse, rest)
  | '\\' :: 'u' :: a :: b :: c :: d :: rest =>
    match hexCode? a b c d with
    | some code => quotedCodes (code :: codes) rest
    | none => none
  | '\\' :: c :: rest =>
    match shortEscape? c with
    | some code => quotedCodes (code :: codes) rest
    | none => none
  | c :: rest => if c.toNat < 0x20 then none else quotedCodes (c.toNat :: codes) rest

/-- The first half of a surrogate pair. -/
def isHighHalf (code : Nat) : Bool :=
  0xD800 ≤ code && code < 0xDC00

/-- The second half of a surrogate pair. -/
def isLowHalf (code : Nat) : Bool :=
  0xDC00 ≤ code && code < 0xE000

/-- The characters that codes stand for: a pair of halves is one character, and a half alone is
none. -/
def joinHalves : List Nat → Option (List Char)
  | [] => some []
  | [code] => if isHighHalf code || isLowHalf code then none else some [Char.ofNat code]
  | code :: next :: rest =>
    if isHighHalf code && isLowHalf next then
      (joinHalves rest).map (Char.ofNat (0x10000 + (code - 0xD800) * 0x400 + (next - 0xDC00)) :: ·)
    else if isHighHalf code || isLowHalf code then none
    else (joinHalves (next :: rest)).map (Char.ofNat code :: ·)

/-- A quoted text after its opening quote: none inside when it holds half of a pair alone. -/
def quoted (cs : List Char) : Option (Option String × List Char) := do
  let (codes, rest) ← quotedCodes [] cs
  return ((joinHalves codes).map String.ofList, rest)

/-! ## Numbers -/

/-- A decimal digit. -/
def isDigit (c : Char) : Bool :=
  '0' ≤ c && c ≤ '9'

/-- The number that a run of digits spells. -/
def digitsValue (digits : List Char) : Nat :=
  digits.foldl (fun value c => value * 10 + (c.toNat - '0'.toNat)) 0

/-- One or more digits. -/
def digits? (cs : List Char) : Option (List Char × List Char) :=
  match cs.span isDigit with
  | ([], _) => none
  | (digits, rest) => some (digits, rest)

/-- The fraction after a number's whole part, empty if there is none. -/
def fraction? : List Char → Option (List Char × List Char)
  | '.' :: rest => do
    let (digits, rest) ← digits? rest
    return ('.' :: digits, rest)
  | cs => some ([], cs)

/-- The exponent at the end of a number, empty if there is none. -/
def exponent? : List Char → Option (List Char × List Char)
  | [] => some ([], [])
  | e :: rest =>
    if e = 'e' ∨ e = 'E' then
      let (sign, rest) :=
        match rest with
        | '+' :: rest => (['+'], rest)
        | '-' :: rest => (['-'], rest)
        | rest => ([], rest)
      do
        let (digits, rest) ← digits? rest
        return (e :: sign ++ digits, rest)
    else some ([], e :: rest)

/-- The whole part of a number: a lone zero, or digits that start with another one. -/
def wholePart? : List Char → Option (List Char × List Char)
  | '0' :: rest => some (['0'], rest)
  | cs => digits? cs

/-- A number is an integer when it is spelled as one, is not a negative zero and fits in 64 bits. -/
def numberOf (negative : Bool) (whole tail : List Char) : Json :=
  let magnitude := digitsValue whole
  let fits :=
    if negative then 0 < magnitude ∧ magnitude ≤ 0x8000000000000000
    else magnitude ≤ 0xFFFFFFFFFFFFFFFF
  if tail = [] ∧ fits then
    .int (if negative then -(magnitude : Int) else magnitude)
  else
    .real (String.ofList ((if negative then ['-'] else []) ++ whole ++ tail))

/-- A number, sign first. -/
def number? (cs : List Char) : Option (Json × List Char) := do
  let (negative, cs) :=
    match cs with
    | '-' :: rest => (true, rest)
    | cs => (false, cs)
  let (whole, rest) ← wholePart? cs
  let (fraction, rest) ← fraction? rest
  let (exponent, rest) ← exponent? rest
  return (numberOf negative whole (fraction ++ exponent), rest)

/-! ## Values -/

/-- The object of some members, unreadable when one of its keys is. -/
def objectOf (members : List (Option String × Json)) : Json :=
  match members.mapM fun (key, value) => key.map (·, value) with
  | some members => .object members
  | none => .unreadable

mutual

/-- One value. Each step of `fuel` pays for at least one character. -/
def value (fuel : Nat) (cs : List Char) : Option (Json × List Char) :=
  match fuel with
  | 0 => none
  | fuel + 1 =>
    match skipBlanks cs with
    | '"' :: rest => do
      let (content, rest) ← quoted rest
      return (content.elim .unreadable .text, rest)
    | '[' :: rest =>
      match skipBlanks rest with
      | ']' :: rest => some (.array [], rest)
      | rest => do
        let (items, rest) ← items fuel rest
        return (.array items, rest)
    | '{' :: rest =>
      match skipBlanks rest with
      | '}' :: rest => some (.object [], rest)
      | rest => do
        let (members, rest) ← members fuel rest
        return (objectOf members, rest)
    | 'n' :: rest => (afterWord? ['u', 'l', 'l'] rest).map (.null, ·)
    | 't' :: rest => (afterWord? ['r', 'u', 'e'] rest).map (.bool true, ·)
    | 'f' :: rest => (afterWord? ['a', 'l', 's', 'e'] rest).map (.bool false, ·)
    | rest => number? rest

/-- The items of an array that is not empty, up to its bracket. -/
def items (fuel : Nat) (cs : List Char) : Option (List Json × List Char) :=
  match fuel with
  | 0 => none
  | fuel + 1 => do
    let (item, rest) ← value fuel cs
    match skipBlanks rest with
    | ']' :: rest => return ([item], rest)
    | ',' :: rest =>
      let (others, rest) ← items fuel rest
      return (item :: others, rest)
    | _ => none

/-- The members of an object that is not empty, up to its brace. -/
def members (fuel : Nat) (cs : List Char) : Option (List (Option String × Json) × List Char) :=
  match fuel with
  | 0 => none
  | fuel + 1 =>
    match skipBlanks cs with
    | '"' :: rest => do
      let (key, rest) ← quoted rest
      match skipBlanks rest with
      | ':' :: rest =>
        let (item, rest) ← value fuel rest
        match skipBlanks rest with
        | '}' :: rest => return ([(key, item)], rest)
        | ',' :: rest =>
          let (others, rest) ← members fuel rest
          return ((key, item) :: others, rest)
        | _ => none
      | _ => none
    | _ => none

end

/-- The document that a text spells, if it is one. -/
def parse (source : String) : Option Json := do
  let cs := source.toList
  let (document, rest) ← value (cs.length + 1) cs
  if skipBlanks rest = [] then some document else none

end SchemaLayout.Json
