import Mathlib.Data.List.MinMax
import SchemaLayout.Proofs.Layout.Span

/-!
# Has-bits and slots

The front of a message's storage: one has-bit for each field and one slot for each oneof up to the highest
that has a member. Slots follow the has-bits without overlap, a member of a oneof is tracked by the slot
of its oneof, and every has-bit that is given out lies within the bytes of the has-bits.
-/

namespace SchemaLayout.Placement

/-! ## The number of slots -/

/-- The fold of `slotCount` is above each index. -/
theorem le_foldl_max_succ (indices : List Nat) (start : Nat) :
    start ≤ indices.foldl (fun count index => max count (index + 1)) start ∧
      ∀ index ∈ indices, index < indices.foldl (fun count index => max count (index + 1)) start := by
  induction indices generalizing start with
  | nil => simp
  | cons first rest ih =>
    obtain ⟨hstart, hrest⟩ := ih (max start (first + 1))
    refine ⟨by rw [List.foldl_cons]; omega, List.forall_mem_cons.2 ⟨?_, hrest⟩⟩
    rw [List.foldl_cons]
    omega

/-- The fold of `slotCount` is at most any bound above each index. -/
theorem foldl_max_succ_le {indices : List Nat} {start bound : Nat} (hstart : start ≤ bound)
    (h : ∀ index ∈ indices, index < bound) :
    indices.foldl (fun count index => max count (index + 1)) start ≤ bound := by
  induction indices generalizing start with
  | nil => exact hstart
  | cons first rest ih =>
    obtain ⟨hfirst, hrest⟩ := List.forall_mem_cons.1 h
    exact ih (Nat.max_le.2 ⟨hstart, hfirst⟩) hrest

/-- `slotCount` is above the oneof of every member. -/
theorem lt_slotCount {shapes : List FieldShape} {shape : FieldShape} {index : Nat}
    (hshape : shape ∈ shapes) (hindex : shape.oneofIndex = some index) :
    index < slotCount shapes :=
  (le_foldl_max_succ _ 0).2 index (List.mem_filterMap.2 ⟨shape, hshape, hindex⟩)

theorem slotCount_le {shapes : List FieldShape} {bound : Nat}
    (h : ∀ shape ∈ shapes, ∀ index, shape.oneofIndex = some index → index < bound) :
    slotCount shapes ≤ bound := by
  refine foldl_max_succ_le (Nat.zero_le _) fun index hindex => ?_
  obtain ⟨shape, hshape, hindex⟩ := List.mem_filterMap.1 hindex
  exact h shape hshape index hindex

/-- `slotCount` is one more than the highest oneof, and 0 without any. -/
theorem slotCount_eq (shapes : List FieldShape) :
    slotCount shapes = (shapes.filterMap (·.oneofIndex)).max?.elim 0 (· + 1) := by
  cases hmax : (shapes.filterMap (·.oneofIndex)).max? with
  | none =>
    rw [List.max?_eq_none_iff] at hmax
    simp only [slotCount, hmax, List.foldl_nil, Option.elim_none]
  | some top =>
    obtain ⟨hmem, htop⟩ := List.max?_eq_some_iff.1 hmax
    have hlt := (le_foldl_max_succ (shapes.filterMap (·.oneofIndex)) 0).2 top hmem
    have hle : slotCount shapes ≤ top + 1 :=
      foldl_max_succ_le (Nat.zero_le _) fun index hindex => Nat.lt_succ_of_le (htop index hindex)
    exact Nat.le_antisymm hle hlt

/-- Has-bits and slots take no more room than a slot more. -/
theorem presenceEnd_le (shapes : List FieldShape) :
    presenceEnd shapes ≤ hasBitBytes shapes.length + slotBytes * (slotCount shapes + 1) := by
  have halign := alignUp_lt_add (show 0 < slotBytes by decide) (hasBitBytes shapes.length)
  rw [presenceEnd, Nat.mul_add, Nat.mul_one]
  split
  · exact Nat.le_add_right _ _
  · rw [slotStart]
    omega

/-! ## Spans -/

/-- The bytes of the has-bits. -/
def hasBitSpan (shapes : List FieldShape) : Span :=
  ⟨0, hasBitBytes shapes.length⟩

/-- The bytes of the slot of a oneof. -/
def slotSpan (shapes : List FieldShape) (index : Nat) : Span :=
  ⟨slotStart shapes + slotBytes * index, slotBytes⟩

/-- The bytes of all slots. -/
def slotSpans (shapes : List FieldShape) : List Span :=
  (List.range (slotCount shapes)).map (slotSpan shapes)

theorem chain_slots (shapes : List FieldShape) (count : Nat) :
    Span.Chain (slotStart shapes) ((List.range count).map (slotSpan shapes))
      (slotStart shapes + slotBytes * count) := by
  induction count with
  | zero => exact .nil _
  | succ count ih =>
    rw [List.range_succ, List.map_append, List.map_singleton]
    refine ih.append (.cons (Nat.le_refl _) ?_)
    have hstop : (slotSpan shapes count).stop = slotStart shapes + slotBytes * (count + 1) := by
      simp only [Span.stop, slotSpan, Nat.mul_add, Nat.mul_one, Nat.add_assoc]
    rw [hstop]
    exact .nil _

/-- The slots follow the has-bits up to `presenceEnd`. -/
theorem chain_presence (shapes : List FieldShape) :
    Span.Chain 0 (hasBitSpan shapes :: slotSpans shapes) (presenceEnd shapes) := by
  have hstop : (hasBitSpan shapes).stop = hasBitBytes shapes.length := Nat.zero_add _
  refine .cons (Nat.le_refl _) ?_
  rw [hstop, presenceEnd]
  by_cases hcount : slotCount shapes = 0
  · rw [if_pos hcount, slotSpans, hcount]
    exact .nil _
  · rw [if_neg hcount]
    -- There may be a gap before the first slot, but no overlap.
    have halign : hasBitBytes shapes.length ≤ slotStart shapes := le_alignUp _ _
    refine (chain_slots shapes (slotCount shapes)).of_start_le halign fun hnil => hcount ?_
    simpa using hnil

theorem isAligned_slotSpan (shapes : List FieldShape) (index : Nat) :
    (slotSpan shapes index).IsAligned := by
  have hstart : slotStart shapes % slotBytes = 0 := alignUp_mod (by decide) _
  show (slotStart shapes + slotBytes * index) % slotBytes = 0
  rw [Nat.add_mul_mod_self_left, hstart]

/-! ## Presences -/

theorem length_presencesFrom (slots required others : Nat) (shapes : List FieldShape) :
    (presencesFrom slots required others shapes).length = shapes.length := by
  induction shapes generalizing required others with
  | nil => rfl
  | cons shape rest ih =>
    rw [presencesFrom]
    split
    · rw [List.length_cons, ih, List.length_cons]
    · split
      · rw [List.length_cons, ih, List.length_cons]
      · split <;> rw [List.length_cons, ih, List.length_cons]

/-- There is one presence for each of `shapes`. -/
theorem length_presences (shapes : List FieldShape) :
    (presences shapes).length = shapes.length :=
  length_presencesFrom _ _ _ shapes

/-- A member of a oneof is tracked by the slot of the oneof. -/
theorem presencesFrom_oneof {slots required others place index : Nat} {shapes : List FieldShape}
    {shape : FieldShape} (hshape : shapes[place]? = some shape)
    (hindex : shape.oneofIndex = some index) :
    (presencesFrom slots required others shapes)[place]? =
      some (.oneofSlot (slots + slotBytes * index)) := by
  induction shapes generalizing required others place with
  | nil => simp at hshape
  | cons first rest ih =>
    cases place with
    | zero =>
      rw [List.getElem?_cons_zero, Option.some.injEq] at hshape
      rw [presencesFrom, hshape, hindex, List.getElem?_cons_zero]
    | succ place =>
      rw [List.getElem?_cons_succ] at hshape
      rw [presencesFrom]
      split
      · rw [List.getElem?_cons_succ, ih hshape]
      · split
        · rw [List.getElem?_cons_succ, ih hshape]
        · split <;> rw [List.getElem?_cons_succ, ih hshape]

/-- The has-bits are below `required` and `others` with the counts of their kinds added. -/
theorem hasBit_mem_presencesFrom {slots required others bit : Nat} {shapes : List FieldShape}
    (h : .hasBit bit ∈ presencesFrom slots required others shapes) :
    bit < required + shapes.countP (fun shape => shape.isTracked && shape.isRequired) ∨
      bit < others + shapes.countP (fun shape => shape.isTracked && !shape.isRequired) := by
  induction shapes generalizing required others with
  | nil => simp [presencesFrom] at h
  | cons shape rest ih =>
    rw [List.countP_cons, List.countP_cons]
    rw [presencesFrom] at h
    -- By where the field goes: into a slot, nowhere, or to a bit of one of the two kinds.
    split at h
    · next index hindex =>
      have hrest := ih (List.mem_of_ne_of_mem (by simp) h)
      omega
    · next hindex =>
      have htracked : shape.isTracked = shape.hasPresence := by
        simp [FieldShape.isTracked, hindex]
      split at h
      · have hrest := ih (List.mem_of_ne_of_mem (by simp) h)
        omega
      · next hpresence =>
        have hpresence : shape.hasPresence = true := by simpa using hpresence
        split at h
        · next hrequired =>
          simp only [htracked, hpresence, hrequired, Bool.and_self, if_true]
          rcases List.mem_cons.1 h with hbit | hbit
          · cases hbit
            omega
          · have hrest := ih hbit
            omega
        · next hrequired =>
          have hrequired : shape.isRequired = false := by simpa using hrequired
          simp only [htracked, hpresence, hrequired, Bool.not_false, Bool.and_self, if_true]
          rcases List.mem_cons.1 h with hbit | hbit
          · cases hbit
            omega
          · have hrest := ih hbit
            omega

/-- Every has-bit lies within `hasBitBytes`. -/
theorem hasBit_lt {bit : Nat} {shapes : List FieldShape} (h : .hasBit bit ∈ presences shapes) :
    bit < 8 * hasBitBytes shapes.length := by
  have hbit := hasBit_mem_presencesFrom h
  -- No field is counted both as required and as not required.
  have hcounts : shapes.countP (fun shape => shape.isTracked && shape.isRequired)
      + shapes.countP (fun shape => shape.isTracked && !shape.isRequired) ≤ shapes.length := by
    clear h hbit
    induction shapes with
    | nil => exact Nat.le_refl _
    | cons shape rest ih =>
      rw [List.countP_cons, List.countP_cons, List.length_cons]
      cases shape.isTracked <;> cases shape.isRequired <;> simp <;> omega
  rw [hasBitBytes]
  omega

end SchemaLayout.Placement
