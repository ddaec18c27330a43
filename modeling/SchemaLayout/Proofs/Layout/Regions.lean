import SchemaLayout.Proofs.Layout.Word

/-!
# The regions of a message

Where a plan puts the has-bits, slots and values of a message (`IsLaidOut`): they are disjoint, aligned, and
inside of the message, which ends where its last value does. The plan of every message is like that, and
as long as the message is not too large, it is found in words of 32 bits.

In the order of storage, has-bits, slots and values are one chain of spans from zero to the size of the
message (`chain_stored`). That the values are disjoint in the order of the fields as well is due to
disjointness being symmetric.
-/

namespace SchemaLayout.Placement

/-! ## Spans of values -/

/-- The bytes of a field's value where its record says it is. -/
def spanOf (target : Target) (field : FieldShape × FieldRecord) : Span :=
  valueSpan target field.1.storageKind field.2.offset

/-- The bytes of the values of a plan, in the order of `shapes`. -/
def valueSpans (target : Target) (shapes : List FieldShape) (plan : LayoutPlan) : List Span :=
  (shapes.zip plan.records).map (spanOf target)

/-- The bytes of the values of a plan, `inStorageOrder`. -/
def storedSpans (target : Target) (shapes : List FieldShape) (plan : LayoutPlan) : List Span :=
  (inStorageOrder (·.1.storageKind) (shapes.zip plan.records)).map (spanOf target)

/-- Has-bits, slots and values of a plan have no byte in common, are inside of the message, and aligned. -/
structure IsLaidOut (shapes : List FieldShape) (target : Target) (plan : LayoutPlan) : Prop where
  /-- There is a record for each field. -/
  numbers : plan.records.map (·.number) = shapes.map (·.number)
  /-- No two of the has-bits, slots and values have a byte in common. -/
  disjoint : (hasBitSpan shapes :: slotSpans shapes ++ valueSpans target shapes plan).Pairwise
    Span.Disjoint
  /-- All of them are inside of the message. -/
  inside : ∀ span ∈ hasBitSpan shapes :: slotSpans shapes ++ valueSpans target shapes plan,
    span.stop ≤ plan.size
  /-- Slots start at multiples of their size. -/
  slots_aligned : ∀ span ∈ slotSpans shapes, span.start % 4 = 0
  /-- The values of each kind start at multiples of its stride. -/
  values_aligned : ∀ field ∈ shapes.zip plan.records,
    field.2.offset % field.1.storageKind.stride target = 0
  /-- Has-bits are bits of the bytes of the has-bits. -/
  hasBits : ∀ record ∈ plan.records, ∀ bit, record.presence = .hasBit bit →
    bit < 8 * hasBitBytes shapes.length
  /-- A member of a oneof has one of the slots, that of its oneof. -/
  slots : ∀ field ∈ shapes.zip plan.records, ∀ index, field.1.oneofIndex = some index →
    slotSpan shapes index ∈ slotSpans shapes ∧
      field.2.presence = .oneofSlot (slotSpan shapes index).start
  /-- The message ends with the last value. -/
  size : plan.size = (storedSpans target shapes plan).getLast?.elim 0 Span.stop

/-! ## Fields and records -/

section

variable (shapes : List FieldShape) (table : SubmessageTable) (target : Target)

/-- The fields with their offsets and presences. -/
def placements : List ((FieldShape × Nat) × Presence) :=
  (shapes.zip (offsets target shapes).1).zip (presences shapes)

theorem placements_map_fst :
    (placements shapes target).map (·.1) = shapes.zip (offsets target shapes).1 := by
  refine List.map_fst_zip ?_
  rw [List.length_zip, length_offsets, length_presences]
  omega

theorem placements_map_shape : (placements shapes target).map (·.1.1) = shapes := by
  have hfirst : (placements shapes target).map (·.1.1)
      = ((placements shapes target).map (·.1)).map (·.1) := by
    rw [List.map_map]
    rfl
  rw [hfirst, placements_map_fst]
  exact List.map_fst_zip (Nat.le_of_eq (length_offsets target shapes).symm)

theorem placements_map_presence :
    (placements shapes target).map (·.2) = presences shapes := by
  refine List.map_snd_zip ?_
  rw [List.length_zip, length_offsets, length_presences]
  omega

theorem plan_records : (plan shapes table target).records =
    (placements shapes target).map fun entry => record table entry.1.1 entry.1.2 entry.2 :=
  rfl

/-- The shapes with the records of a plan, from `placements`. -/
theorem zip_plan_records : shapes.zip (plan shapes table target).records =
    (placements shapes target).map fun entry =>
      (entry.1.1, record table entry.1.1 entry.1.2 entry.2) := by
  have hzip := @List.zip_map' _ _ _ (fun entry : (FieldShape × Nat) × Presence => entry.1.1)
    (fun entry => record table entry.1.1 entry.1.2 entry.2) (placements shapes target)
  rwa [placements_map_shape, ← plan_records] at hzip

theorem zip_plan_offsets :
    ((shapes.zip (plan shapes table target).records).map fun field =>
      (field.1.storageKind, field.2.offset)) =
    (shapes.map (·.storageKind)).zip (offsets target shapes).1 := by
  rw [zip_plan_records, List.map_map, List.zip_map_left, ← placements_map_fst, List.map_map]
  rfl

/-! ## The chain -/

/-- `storedSpans` are the `placedSpans` of a cursor behind has-bits and slots. -/
theorem storedSpans_plan : storedSpans target shapes (plan shapes table target) =
    placedSpans target (inStorageOrder id (shapes.map (·.storageKind))) (presenceEnd shapes) := by
  -- The kinds in the order of storage go with the offsets in that order.
  have hkinds : inStorageOrder id (shapes.map (·.storageKind)) =
      (inStorageOrder (·.1)
        ((shapes.map (·.storageKind)).zip (offsets target shapes).1)).map (·.1) := by
    have hfirst := map_inStorageOrder (·.1) id
      ((shapes.map (·.storageKind)).zip (offsets target shapes).1)
    rw [List.map_fst_zip (by rw [List.length_map, length_offsets])] at hfirst
    exact hfirst.symm
  rw [placedSpans, place_inStorageOrder]
  conv => rhs; rw [hkinds]
  rw [List.zipWith_map, List.zipWith_self, ← zip_plan_offsets shapes table target,
    ← map_inStorageOrder, List.map_map]
  rfl

/-- Has-bits, slots and `storedSpans` form a chain from 0 to the size of the plan. -/
theorem chain_stored :
    Span.Chain 0 (hasBitSpan shapes :: slotSpans shapes
      ++ storedSpans target shapes (plan shapes table target)) (plan shapes table target).size := by
  have hvalues := chain_placedSpans target (inStorageOrder id (shapes.map (·.storageKind)))
    (presenceEnd shapes)
  rw [← storedSpans_plan shapes table target, place_inStorageOrder] at hvalues
  exact (chain_presence shapes).append hvalues

/-- In the order of storage, each value ends before the next ones start. -/
theorem pairwise_stored :
    (inStorageOrder (·.1.storageKind) (shapes.zip (plan shapes table target).records)).Pairwise
      fun first second => (spanOf target first).stop ≤ (spanOf target second).start := by
  have hchain := (chain_stored shapes table target).pairwise_stop_le
  have hstored := (List.pairwise_append.1 hchain).2.1
  unfold storedSpans at hstored
  rwa [List.pairwise_map] at hstored

/-- The spans in the order of storage are those in the order of `shapes`. -/
theorem stored_perm (plan : LayoutPlan) :
    (hasBitSpan shapes :: slotSpans shapes ++ storedSpans target shapes plan).Perm
      (hasBitSpan shapes :: slotSpans shapes ++ valueSpans target shapes plan) :=
  ((inStorageOrder_perm _ _).map _).append_left _

end

/-! ## The plan -/

/-- `plan` satisfies `IsLaidOut`. -/
theorem isLaidOut_plan (shapes : List FieldShape) (table : SubmessageTable) (target : Target) :
    IsLaidOut shapes target (plan shapes table target) := by
  have hchain := chain_stored shapes table target
  have hperm := stored_perm shapes target (plan shapes table target)
  have hrecord {record : FieldRecord} (h : record ∈ (plan shapes table target).records) :
      record.presence ∈ presences shapes := by
    rw [plan_records] at h
    obtain ⟨entry, hentry, rfl⟩ := List.mem_map.1 h
    rw [← placements_map_presence shapes target]
    exact List.mem_map_of_mem hentry
  constructor
  case numbers =>
    conv => rhs; rw [← placements_map_shape shapes target]
    rw [plan_records, List.map_map, List.map_map]
    rfl
  case disjoint =>
    exact hchain.pairwise_disjoint.perm hperm Span.Disjoint.symm
  case inside =>
    intro span hspan
    exact (hchain.mem_bounds span (hperm.mem_iff.2 hspan)).2
  case slots_aligned =>
    intro span hspan
    obtain ⟨index, -, rfl⟩ := List.mem_map.1 hspan
    exact isAligned_slotSpan shapes index
  case values_aligned =>
    intro field hfield
    -- Alignment is known of the values in the order of their storage.
    have hstored : spanOf target field ∈ storedSpans target shapes (plan shapes table target) :=
      List.mem_map_of_mem ((inStorageOrder_perm _ _).mem_iff.2 hfield)
    rw [storedSpans_plan] at hstored
    exact isAligned_placedSpans _ _ _ _ hstored
  case hasBits =>
    intro record hmem bit hbit
    exact hasBit_lt (hbit ▸ hrecord hmem)
  case slots =>
    intro field hfield index hindex
    rw [zip_plan_records] at hfield
    obtain ⟨entry, hentry, rfl⟩ := List.mem_map.1 hfield
    -- The shape and the presence of the field are at the same place.
    obtain ⟨place, hplace⟩ := List.mem_iff_getElem?.1 hentry
    have hshape : shapes[place]? = some entry.1.1 := by
      rw [← placements_map_shape shapes target, List.getElem?_map, hplace]
      rfl
    have hpresence : (presences shapes)[place]? = some entry.2 := by
      rw [← placements_map_presence shapes target, List.getElem?_map, hplace]
      rfl
    refine ⟨List.mem_map_of_mem (List.mem_range.2 ?_), ?_⟩
    · exact lt_slotCount (List.mem_of_getElem? hshape) hindex
    · rw [presences, presencesFrom_oneof hshape hindex, Option.some.injEq] at hpresence
      exact hpresence.symm
  case size =>
    -- Without values there are no has-bits and no slots either, so the size is zero.
    have hvalues := chain_placedSpans target (inStorageOrder id (shapes.map (·.storageKind)))
      (presenceEnd shapes)
    have hlength := length_placedSpans target (inStorageOrder id (shapes.map (·.storageKind)))
      (presenceEnd shapes)
    rw [(inStorageOrder_perm _ _).length_eq, List.length_map] at hlength
    rw [place_inStorageOrder] at hvalues
    rw [storedSpans_plan]
    refine hvalues.stop_eq_getLast.trans ?_
    cases hlast : (placedSpans target (inStorageOrder id (shapes.map (·.storageKind)))
        (presenceEnd shapes)).getLast? with
    | some last => rfl
    | none =>
      rw [List.getLast?_eq_none_iff.1 hlast] at hlength
      rw [List.length_eq_zero_iff.1 hlength.symm]
      rfl

/-- For at most 2²⁶ fields and oneofs, `checkedPlan` on words of 32 bits finds `plan`. -/
theorem checkedPlan_submessages {shapes : List FieldShape} (hcount : shapes.length ≤ 2 ^ 26)
    (honeofs : ∀ shape ∈ shapes, ∀ index, shape.oneofIndex = some index → index < 2 ^ 26)
    (target : Target) : checkedPlan shapes (submessages shapes) target =
      some (plan shapes (submessages shapes) target) := by
  refine checkedPlan_eq _ ?_ ?_ ?_
  · simp only [word32Limit]
    omega
  · have halign := alignUp_lt_add (show 0 < slotBytes by decide) (hasBitBytes shapes.length)
    simp only [slotStart, slotBytes, hasBitBytes, word32Limit] at halign ⊢
    omega
  -- 2²³ bytes of has-bits, 2²⁸ of slots and 2³¹ of values make less than 2³².
  · have hsize := size_le target shapes
    have hslots : slotCount shapes ≤ 2 ^ 26 := slotCount_le honeofs
    simp only [slotBytes, hasBitBytes, word32Limit] at hsize ⊢
    omega

/-- For at most 2²⁶ fields and oneofs, `checkedPlan` on words of 32 bits finds the plan of `layout`, and it
satisfies `IsLaidOut`. -/
theorem layout_isLaidOut {shapes : List FieldShape} (hcount : shapes.length ≤ 2 ^ 26)
    (honeofs : ∀ shape ∈ shapes, ∀ index, shape.oneofIndex = some index → index < 2 ^ 26)
    (target : Target) :
    checkedPlan shapes (submessages shapes) target = some ((layout shapes).plans.get target) ∧
      IsLaidOut shapes target ((layout shapes).plans.get target) := by
  have hget : (layout shapes).plans.get target = plan shapes (submessages shapes) target :=
    PerTarget.get_ofTarget _ target
  rw [hget]
  exact ⟨checkedPlan_submessages hcount honeofs target, isLaidOut_plan shapes _ target⟩

/-- A message with values of all kinds, no member of whose second oneof is left. -/
theorem layout_isLaidOut_mixed :
    let shapes := [(FieldShape.scalar 1 .bool).required, (FieldShape.scalar 3 .string).inOneof 2,
      .scalar 4 .int64, (FieldShape.scalar 7 .message).withPresence,
      (FieldShape.scalar 9 .float).inOneof 0, .scalar 10 .bytes]
    let plan := (layout shapes).plans.get .bits32
    checkedPlan shapes (submessages shapes) .bits32 = some plan ∧ IsLaidOut shapes .bits32 plan :=
  layout_isLaidOut (by decide) (by decide) .bits32

end SchemaLayout.Placement
