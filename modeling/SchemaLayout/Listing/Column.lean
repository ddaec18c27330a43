/-!
# Columns

Texts padded to a width that is counted in characters, and lines without blanks at their end.
-/

namespace SchemaLayout.Listing

/-- A text with blanks after it up to `width`. -/
def leftAligned (width : Nat) (text : String) : String :=
  text ++ "".pushn ' ' (width - text.length)

/-- A text with blanks before it up to `width`. -/
def rightAligned (width : Nat) (text : String) : String :=
  "".pushn ' ' (width - text.length) ++ text

/-- A text without the blanks at its end. -/
def trimmedEnd (text : String) : String :=
  String.ofList (text.toList.reverse.dropWhile (· = ' ')).reverse

/-- The number of decimal digits of `n`. -/
def digitCount (n : Nat) : Nat :=
  (toString n).length

/-- Lines, each ended by a line break. -/
def lines (texts : List String) : String :=
  String.join (texts.map (· ++ "\n"))

end SchemaLayout.Listing
