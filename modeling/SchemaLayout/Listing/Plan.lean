import SchemaLayout.Layout.Plan
import SchemaLayout.Listing.Column
import SchemaLayout.Text.Palette

/-!
# Listings of layout plans

A plan in words: the numbers of its header, then a row for each field. Colour codes count as
characters of a column.
-/

namespace SchemaLayout.Listing

/-- The words for a mode; a plain scalar has none. -/
def modeWords (mode : FieldMode) : List String :=
  (match mode.cardinality with
    | .scalar => []
    | .array => ["repeated"]
    | .map => ["map"])
  ++ (if mode.isPacked then ["packed"] else [])
  ++ (if mode.isExtension then ["extension"] else [])

/-- The row of a field, in columns wide enough for every number and offset. The presence is padded with its
colours in it. -/
def recordRow (palette : Palette) (numberWidth offsetWidth : Nat) (record : FieldRecord) : String :=
  let presence :=
    if record.presence = .none then palette.dimmed record.presence.display
    else record.presence.display
  let words := modeWords record.mode
  trimmedEnd (
    "#" ++ leftAligned numberWidth (toString record.number)
    ++ "  " ++ palette.dimmed ("@" ++ leftAligned offsetWidth (toString record.offset))
    ++ "  " ++ leftAligned 8 record.type.keyword
    ++ "  " ++ leftAligned 12 presence
    ++ (if record.submessage = 0 then "" else "  M" ++ toString record.submessage)
    ++ (if words = [] then "" else "  " ++ palette.dimmed (String.intercalate " " words)))

/-- The lines of a listing before its rows. -/
def headLines (palette : Palette) (plan : LayoutPlan) : List String :=
  [palette.heading "[header]",
    "size              " ++ toString plan.size,
    "fields            " ++ toString plan.records.length,
    "required          " ++ toString plan.requiredCount,
    "explicit_presence " ++ toString plan.explicitCount,
    "dense_below       " ++ toString plan.denseBelow]
  ++ if plan.records = [] then [] else ["", palette.heading "[fields]"]

/-- The width of the column of numbers. -/
def numberWidth (plan : LayoutPlan) : Nat :=
  (plan.records.map (digitCount ·.number)).foldl max 0

/-- The width of the column of offsets. -/
def offsetWidth (plan : LayoutPlan) : Nat :=
  digitCount plan.size

/-- The listing of a plan: its `headLines`, then the `recordRow` of each record. -/
def plan (palette : Palette) (plan : LayoutPlan) : String :=
  lines (headLines palette plan ++ plan.records.map (recordRow palette (numberWidth plan) (offsetWidth plan)))

end SchemaLayout.Listing
