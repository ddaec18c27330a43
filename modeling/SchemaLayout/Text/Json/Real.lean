import SchemaLayout.Text.Json.Reader
import SchemaLayout.Number.Shortest

/-!
# Real numbers

A number that is no integer of 64 bits is kept in double precision, and a number beyond double
precision is refused. The number is computed from the digits that fit in 64 bits and a power of ten,
so it need not be the nearest to what is spelled. It is written again as the shortest decimal that
stands for it.
-/

namespace SchemaLayout.Json

/-! ## Reading -/

/-- Appends digits to a number while it fits in 64 bits, and leaves the rest of them. -/
def appendDigits (value : Nat) : List Char → Nat × List Char
  | [] => (value, [])
  | c :: rest =>
    let longer := digitsValue [c] + value * 10
    if longer ≤ 0xFFFFFFFFFFFFFFFF then appendDigits longer rest else (value, c :: rest)

/-- The power of ten at the end of a spelling, from the letter that announces it. -/
def tenExponent : List Char → Int
  | _ :: '-' :: digits => -digitsValue digits
  | _ :: '+' :: digits => digitsValue digits
  | _ :: digits => digitsValue digits
  | [] => 0

/-- The number that an unsigned spelling stands for. A digit before the point that has no room
counts by its place alone, and one behind the point not at all. -/
def double? (spelling : List Char) : Option Double :=
  let (whole, rest) := spelling.span isDigit
  let (fraction, rest) :=
    match rest with
    | '.' :: rest => rest.span isDigit
    | rest => ([], rest)
  let (value, left) := appendDigits 0 whole
  let (value, unread) := appendDigits value fraction
  let places : Int := left.length - (fraction.length - unread.length)
  Double.ofDecimal? value (places + tenExponent rest)

/-! ## Writing -/

/-- The spelling of digits with the point behind the first `point` of them. It is written in full,
with a digit on both sides of the point, if no more than sixteen digits stand in front of the point
and no more than four zeros behind it; else it ends in a power of ten. -/
def spellDecimal (digits : List Char) (point : Int) : List Char :=
  if digits.length ≤ point ∧ point ≤ 16 then
    digits ++ List.replicate (point.toNat - digits.length) '0' ++ ['.', '0']
  else if 0 < point ∧ point ≤ 16 then
    digits.take point.toNat ++ '.' :: digits.drop point.toNat
  else if -5 < point ∧ point ≤ 0 then
    '0' :: '.' :: (List.replicate (-point).toNat '0' ++ digits)
  else
    digits.take 1 ++ (if digits.length = 1 then [] else '.' :: digits.drop 1)
    ++ 'e' :: (if point < 1 then ['-'] else []) ++ Nat.toDigits 10 (point - 1).natAbs

/-- The spelling of a number of double precision. -/
def spellDouble (x : Double) : List Char :=
  let (digits, place) := x.shortest
  let digits := Nat.toDigits 10 digits
  spellDecimal digits (digits.length + place)

/-- The spelling by which a number is kept. -/
def respell? (spelling : String) : Option String :=
  match spelling.toList with
  | '-' :: unsigned => (double? unsigned).map fun x => String.ofList ('-' :: spellDouble x)
  | unsigned => (double? unsigned).map fun x => String.ofList (spellDouble x)

end SchemaLayout.Json
