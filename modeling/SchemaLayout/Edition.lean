/-!
# Editions

The language levels a schema file can be written in, in ascending order. The two older syntaxes have
levels of their own below the numbered editions, and three markers stand for no level of a file.
-/

namespace SchemaLayout

/-- A language level. -/
inductive Edition where
  | unknown
  | legacy
  | proto2
  | proto3
  | edition2023
  | edition2024
  | max
  deriving DecidableEq, Inhabited

namespace Edition

/-- Every edition, in ascending order. -/
def all : List Edition :=
  [unknown, legacy, proto2, proto3, edition2023, edition2024, max]

/-- The number that orders the editions; `≤` and `<` compare it. -/
def rank : Edition → Nat
  | unknown => 0
  | legacy => 900
  | proto2 => 998
  | proto3 => 999
  | edition2023 => 1000
  | edition2024 => 1001
  | max => 2147483647

instance : LE Edition := ⟨fun a b => a.rank ≤ b.rank⟩

instance : LT Edition := ⟨fun a b => a.rank < b.rank⟩

instance (a b : Edition) : Decidable (a ≤ b) := inferInstanceAs (Decidable (a.rank ≤ b.rank))

instance (a b : Edition) : Decidable (a < b) := inferInstanceAs (Decidable (a.rank < b.rank))

/-- The name that messages use. -/
def display : Edition → String
  | unknown => "unknown"
  | legacy => "legacy"
  | proto2 => "proto2"
  | proto3 => "proto3"
  | edition2023 => "2023"
  | edition2024 => "2024"
  | max => "max"

/-- The name that documents use. -/
def keyword : Edition → String
  | unknown => "EDITION_UNKNOWN"
  | legacy => "EDITION_LEGACY"
  | proto2 => "EDITION_PROTO2"
  | proto3 => "EDITION_PROTO3"
  | edition2023 => "EDITION_2023"
  | edition2024 => "EDITION_2024"
  | max => "EDITION_MAX"

/-- Files below `edition2023` take their features from their own declarations, never from options of what
encloses them. -/
def isLegacy (edition : Edition) : Bool :=
  edition < edition2023

/-- The level of a file that names a syntax and an edition. The edition counts only in a file whose
syntax is `editions`; a file without a known syntax is of the oldest one. -/
def ofSyntax (name : Option String) (edition : Option Edition) : Edition :=
  if name = some "editions" then edition.getD unknown
  else if name = some "proto3" then proto3
  else proto2

end Edition

end SchemaLayout
