/-!
# Palettes

The terminal codes that a listing puts around its parts. Blue marks headings, green marks names, dim
marks offsets and remarks, and `reset` ends each of them. A listing without colour uses the palette
whose codes are all empty.
-/

namespace SchemaLayout

/-- The codes that start and end a coloured part. -/
structure Palette where
  blue : String
  green : String
  dim : String
  reset : String

namespace Palette

/-- The codes of a colour terminal. -/
def colored : Palette :=
  ⟨"\x1b[34m", "\x1b[32m", "\x1b[2m", "\x1b[0m"⟩

/-- No codes at all. -/
def plain : Palette :=
  ⟨"", "", "", ""⟩

/-- The coloured palette if colour is wanted, else the plain one. -/
def of (colour : Bool) : Palette :=
  if colour then colored else plain

/-- A text in blue. -/
def heading (palette : Palette) (text : String) : String :=
  palette.blue ++ text ++ palette.reset

/-- A text in green. -/
def named (palette : Palette) (text : String) : String :=
  palette.green ++ text ++ palette.reset

/-- A dimmed text. -/
def dimmed (palette : Palette) (text : String) : String :=
  palette.dim ++ text ++ palette.reset

end Palette

end SchemaLayout
