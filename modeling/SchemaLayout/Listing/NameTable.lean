import SchemaLayout.Listing.Column
import SchemaLayout.NameTable.Entry
import SchemaLayout.Text.Palette
import SchemaLayout.Text.Quoted

/-!
# Listings of name tables

A name table in words: a row for each number with its name and what else is to be said, and a row for
each reserved name or range.
-/

namespace SchemaLayout.Listing

/-- The part of a row that names a number. -/
def numberedName (palette : Palette) (number : Int32) (name : String) : String :=
  rightAligned 4 (toString number.toInt) ++ "  " ++ palette.named name

/-- A row for something that is reserved. -/
def reservedRow (palette : Palette) (what : String) : String :=
  "   -  " ++ palette.dimmed ("reserved " ++ what)

/-- The row of an entry. -/
def entryRow (palette : Palette) : NameEntry → String
  | .same number name => numberedName palette number name
  | .standard number name =>
    numberedName palette number name ++ "  " ++ palette.dimmed ("json=" ++ Name.json name)
  | .unique number name json => numberedName palette number name ++ "  json=" ++ json
  | .group number name => numberedName palette number name ++ "  " ++ palette.dimmed "group"
  | .aliased number name aliases =>
    numberedName palette number name ++ "  aliases=" ++ String.intercalate "," aliases
  | .reservedName name => reservedRow palette (Quoted.text name)
  | .reservedNumbers first last =>
    reservedRow palette (toString first.toInt ++ "..=" ++ toString last.toInt)

/-- The listing of a name table: a heading, then the `entryRow` of each entry. -/
def nameTable (palette : Palette) (entries : List NameEntry) : String :=
  lines (palette.heading "[names]" :: entries.map (entryRow palette))

end SchemaLayout.Listing
