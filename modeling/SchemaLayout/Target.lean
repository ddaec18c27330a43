/-!
# Targets

The two pointer widths that messages are laid out for, and values that each of them has its own of.
-/

namespace SchemaLayout

/-- A pointer width. -/
inductive Target where
  | bits64
  | bits32
  deriving DecidableEq, Inhabited

namespace Target

/-- Both targets, the wider one first. -/
def all : List Target :=
  [bits64, bits32]

/-- The bytes of a pointer, `8` or `4`. -/
def pointerBytes : Target → Nat
  | bits64 => 8
  | bits32 => 4

/-- The name of a target in listings. -/
def display : Target → String
  | bits64 => "64-bit"
  | bits32 => "32-bit"

end Target

/-- The least multiple of `stride` that is not below `offset`. -/
def alignUp (stride offset : Nat) : Nat :=
  if offset % stride = 0 then offset else offset + (stride - offset % stride)

/-- A value for each target. -/
structure PerTarget (α : Type) where
  bits64 : α
  bits32 : α
  deriving DecidableEq, Inhabited

namespace PerTarget

variable {α β : Type}

/-- The same value for both targets. -/
def all (value : α) : PerTarget α :=
  ⟨value, value⟩

/-- The value for each target is that of the function `value`. -/
def ofTarget (value : Target → α) : PerTarget α :=
  ⟨value .bits64, value .bits32⟩

/-- The value for `target`. -/
def get (values : PerTarget α) : Target → α
  | .bits64 => values.bits64
  | .bits32 => values.bits32

/-- Gives one target another value. -/
def set (values : PerTarget α) (target : Target) (value : α) : PerTarget α :=
  match target with
  | .bits64 => { values with bits64 := value }
  | .bits32 => { values with bits32 := value }

/-- The values in the order of `Target.all`. -/
def toList (values : PerTarget α) : List α :=
  Target.all.map values.get

/-- Applies a function to both values. -/
def map (change : α → β) (values : PerTarget α) : PerTarget β :=
  ⟨change values.bits64, change values.bits32⟩

/-- Applies a function to both values; the first failure is that of the whole. -/
def mapExcept {ε : Type} (change : α → Except ε β) (values : PerTarget α) :
    Except ε (PerTarget β) := do
  let bits64 ← change values.bits64
  let bits32 ← change values.bits32
  return ⟨bits64, bits32⟩

/-- The pairs of values of the same target. -/
def zip (values : PerTarget α) (others : PerTarget β) : PerTarget (α × β) :=
  ⟨(values.bits64, others.bits64), (values.bits32, others.bits32)⟩

/-- The value of both targets, if it is the same. -/
def agreed? [DecidableEq α] (values : PerTarget α) : Option α :=
  if values.bits64 = values.bits32 then some values.bits64 else none

/-- Adds `sizes` to `offsets`, target by target. -/
def add (offsets sizes : PerTarget Nat) : PerTarget Nat :=
  (offsets.zip sizes).map fun (offset, size) => offset + size

/-- Rounds `offsets` up to multiples of `strides` with `alignUp`. -/
def align (offsets strides : PerTarget Nat) : PerTarget Nat :=
  (offsets.zip strides).map fun (offset, stride) => alignUp stride offset

@[simp] theorem get_ofTarget (value : Target → α) (target : Target) :
    (ofTarget value).get target = value target := by
  cases target <;> rfl

end PerTarget

end SchemaLayout
