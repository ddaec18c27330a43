import SchemaLayout.Proofs.Layout.Span

/-!
# Placing values by a cursor

Placement computes where the region of each storage kind starts, and the offset of a value from the number
of values of its kind before it. One can also let a cursor pass over the values in the order of their
storage: it is aligned before each value and moved behind it (`place`). Both give the same offsets and
the same size (`place_inStorageOrder`), because a cursor that has been aligned for the first value of
a kind stays aligned for the others.

The values that a cursor has passed are a chain of aligned spans.
-/

namespace SchemaLayout

namespace StorageKind

theorem stride_pos (target : Target) (kind : StorageKind) : 0 < kind.stride target := by
  cases target <;> cases kind <;> decide

theorem stride_le (target : Target) (kind : StorageKind) : kind.stride target ≤ 16 := by
  cases target <;> cases kind <;> decide

end StorageKind

namespace Placement

/-! ## The cursor -/

/-- Where a cursor places values of the given kinds, and where it is behind the last one. -/
def place (target : Target) : (kinds : List StorageKind) → (cursor : Nat) → List Nat × Nat
  | [], cursor => ([], cursor)
  | kind :: rest, cursor =>
    let offset := alignUp (kind.stride target) cursor
    let later := place target rest (offset + kind.stride target)
    (offset :: later.1, later.2)

/-- The bytes of a value of `kind` at `offset`. -/
def valueSpan (target : Target) (kind : StorageKind) (offset : Nat) : Span :=
  ⟨offset, kind.stride target⟩

/-- The bytes of the values that `place` places. -/
def placedSpans (target : Target) (kinds : List StorageKind) (cursor : Nat) : List Span :=
  kinds.zipWith (valueSpan target) (place target kinds cursor).1

/-- `place` gives one offset for each kind. -/
theorem length_place (target : Target) (kinds : List StorageKind) (cursor : Nat) :
    (place target kinds cursor).1.length = kinds.length := by
  induction kinds generalizing cursor with
  | nil => rfl
  | cons kind rest ih => simp only [place, List.length_cons, ih]

theorem length_placedSpans (target : Target) (kinds : List StorageKind) (cursor : Nat) :
    (placedSpans target kinds cursor).length = kinds.length := by
  rw [placedSpans, List.length_zipWith, length_place, Nat.min_self]

/-- `placedSpans` follow each other, from `cursor` to the end of `place`. -/
theorem chain_placedSpans (target : Target) (kinds : List StorageKind) (cursor : Nat) :
    Span.Chain cursor (placedSpans target kinds cursor) (place target kinds cursor).2 := by
  induction kinds generalizing cursor with
  | nil => exact .nil cursor
  | cons kind rest ih => exact .cons (le_alignUp _ _) (ih _)

/-- All `placedSpans` are aligned. -/
theorem isAligned_placedSpans (target : Target) (kinds : List StorageKind) (cursor : Nat) :
    ∀ span ∈ placedSpans target kinds cursor, span.IsAligned := by
  induction kinds generalizing cursor with
  | nil => simp [placedSpans]
  | cons kind rest ih =>
    exact List.forall_mem_cons.2 ⟨alignUp_mod (kind.stride_pos target) cursor, ih _⟩

/-- Each value takes less than two strides: one for itself, the rest for its alignment. -/
theorem place_stop_le (target : Target) (kinds : List StorageKind) (cursor : Nat) :
    (place target kinds cursor).2 ≤ cursor + 32 * kinds.length := by
  induction kinds generalizing cursor with
  | nil => exact Nat.le_refl _
  | cons kind rest ih =>
    have hrest := ih (alignUp (kind.stride target) cursor + kind.stride target)
    have halign := alignUp_lt_add (kind.stride_pos target) cursor
    have hstride := kind.stride_le target
    simp only [place, List.length_cons]
    omega

/-! ## Values of one kind -/

/-- `count` offsets from `start` on, `stride` apart. -/
def run (start stride : Nat) : (count : Nat) → List Nat
  | 0 => []
  | count + 1 => start :: run (start + stride) stride count

/-- From an aligned cursor, `place` puts values of one kind as a `run`. -/
theorem place_replicate_of_aligned {target : Target} {kind : StorageKind} {cursor : Nat}
    (count : Nat) (rest : List StorageKind) (h : cursor % kind.stride target = 0) :
    place target (List.replicate count kind ++ rest) cursor =
      (run cursor (kind.stride target) count
        ++ (place target rest (cursor + kind.stride target * count)).1,
       (place target rest (cursor + kind.stride target * count)).2) := by
  induction count generalizing cursor with
  | zero => rfl
  | succ count ih =>
    -- One stride further on, the cursor is still aligned.
    have hnext : (cursor + kind.stride target) % kind.stride target = 0 := by
      rw [Nat.add_mod_right, h]
    have hend : cursor + kind.stride target + kind.stride target * count
        = cursor + kind.stride target * (count + 1) := by
      rw [Nat.mul_add, Nat.mul_one]
      omega
    rw [List.replicate_succ, List.cons_append]
    simp only [place, alignUp_of_mod_eq_zero h, ih hnext, hend, run, List.cons_append]

/-- From any cursor, `place` puts values of one kind as a `run` from the next aligned offset. -/
theorem place_replicate (target : Target) (kind : StorageKind) (count cursor : Nat)
    (rest : List StorageKind) :
    place target (List.replicate count kind ++ rest) cursor =
      let start := if count = 0 then cursor else alignUp (kind.stride target) cursor
      let later := place target rest (start + kind.stride target * count)
      (run start (kind.stride target) count ++ later.1, later.2) := by
  cases count with
  | zero => rfl
  | succ count =>
    have haligned := alignUp_mod (kind.stride_pos target) cursor
    -- Aligning the cursor beforehand does not change where the first value goes.
    have hfirst : place target (List.replicate (count + 1) kind ++ rest) cursor
        = place target (List.replicate (count + 1) kind ++ rest)
            (alignUp (kind.stride target) cursor) := by
      rw [List.replicate_succ, List.cons_append]
      simp only [place, alignUp_of_mod_eq_zero haligned]
    rw [hfirst, place_replicate_of_aligned (count + 1) rest haligned]
    rfl

/-! ## Regions -/

/-- Kind by kind, `place` gives the runs that start at `regions`. -/
theorem place_regions (target : Target) (count : StorageKind → Nat) {kinds : List StorageKind}
    (hnodup : kinds.Nodup) (cursor : Nat) :
    place target (kinds.flatMap fun kind => List.replicate (count kind) kind) cursor =
      (kinds.flatMap fun kind =>
        run ((regions target count kinds cursor).1.get kind) (kind.stride target) (count kind),
       (regions target count kinds cursor).2) := by
  induction kinds generalizing cursor with
  | nil => rfl
  | cons kind rest ih =>
    obtain ⟨hkind, hrest⟩ := List.nodup_cons.1 hnodup
    rw [List.flatMap_cons, place_replicate]
    simp only [ih hrest, regions, List.flatMap_cons, PerKind.get_set, if_true]
    congr 2
    -- The start of this region leaves those of the others alone.
    refine List.flatMap_congr fun other hother => ?_
    have hne : other ≠ kind := fun heq => hkind (heq ▸ hother)
    rw [if_neg hne]

/-- The offsets that `offsetsFrom` gives to one kind are a `run`. -/
theorem filter_offsetsFrom (target : Target) (kind : StorageKind) (kinds : List StorageKind)
    (next : PerKind) :
    ((kinds.zip (offsetsFrom target next kinds)).filter (·.1 = kind)).map (·.2) =
      run (next.get kind) (kind.stride target) (kinds.count kind) := by
  induction kinds generalizing next with
  | nil => rfl
  | cons first rest ih =>
    -- Only values of the kind itself move its next offset on.
    by_cases h : first = kind
    · subst h
      simp only [offsetsFrom, List.zip_cons_cons, List.filter_cons, decide_true, if_true,
        List.map_cons, ih, PerKind.get_set, List.count_cons_self, run]
    · have hother : kind ≠ first := fun heq => h heq.symm
      simp only [offsetsFrom, List.zip_cons_cons, List.filter_cons, h, decide_false,
        Bool.false_eq_true, if_false, ih, PerKind.get_set, hother, List.count_cons_of_ne h]

/-- `offsets` in terms of `regions` and the number of values of each kind. -/
theorem offsets_eq (target : Target) (shapes : List FieldShape) :
    offsets target shapes =
      let kinds := shapes.map (·.storageKind)
      let found := regions target kinds.count StorageKind.all (presenceEnd shapes)
      (offsetsFrom target found.1 kinds, found.2) := by
  -- The counts are kept in a record with one number for each kind.
  have hcounts (kinds : List StorageKind) : PerKind.get (StorageKind.all.foldl
      (fun counts kind => counts.set kind (kinds.count kind)) {}) = kinds.count := by
    funext kind
    cases kind <;> rfl
  simp only [offsets, hcounts]

theorem length_offsets (target : Target) (shapes : List FieldShape) :
    (offsets target shapes).1.length = shapes.length := by
  have hfrom (next : PerKind) (kinds : List StorageKind) :
      (offsetsFrom target next kinds).length = kinds.length := by
    induction kinds generalizing next with
    | nil => rfl
    | cons kind rest ih => simp only [offsetsFrom, List.length_cons, ih]
  rw [offsets_eq, hfrom, List.length_map]

/-- A cursor that passes over the values in the order of storage finds the offsets and the size that `offsets`
computes. -/
theorem place_inStorageOrder (target : Target) (shapes : List FieldShape) :
    place target (inStorageOrder id (shapes.map (·.storageKind))) (presenceEnd shapes) =
      ((inStorageOrder (·.1) ((shapes.map (·.storageKind)).zip (offsets target shapes).1)).map (·.2),
       (offsets target shapes).2) := by
  have hkinds (kinds : List StorageKind) : inStorageOrder id kinds
      = StorageKind.all.flatMap fun kind => List.replicate (kinds.count kind) kind :=
    List.flatMap_congr fun kind _ => List.filter_eq kind
  have hregions := place_regions target (shapes.map (·.storageKind)).count
    (show StorageKind.all.Nodup by decide) (presenceEnd shapes)
  rw [hkinds, hregions, offsets_eq]
  simp only [inStorageOrder, List.map_flatMap, filter_offsetsFrom]

end Placement

end SchemaLayout
