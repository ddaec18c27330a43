import SchemaLayout.Proofs.Layout.Codec
import SchemaLayout.Proofs.Layout.Presence
import SchemaLayout.Proofs.Layout.Submessages

/-!
# Layouts that fit

Of what a program has to hold of a layout, only the size and the offsets differ between targets, and no offset is
larger than the size. So if a layout fits on one target, all that can go wrong on the other one is that the
message is too large there (`fits_plan_iff`).

All of it grows with the number of fields and the number of slots: has-bits, slots, offsets and indices are bounded by
them. Up to 1900 of each, everything fits (`IsOrdinary.fits_plan`). The slots of oneofs are what would be out of
reach first, since a program has 13 bits for their offsets.
-/

namespace SchemaLayout.Placement

/-! ## What differs between targets -/

/-- All that a plan of `shapes` writes fits, except for its size and offsets. -/
structure FitsApartFromSize (shapes : List FieldShape) : Prop where
  count : shapes.length < 128 ^ 3
  denseBelow : denseBelow 1 (shapes.map (·.number)) < 128 ^ 3
  numbers : ∀ shape ∈ shapes, shape.number < FieldRecord.numberLimit
  presences : ∀ presence ∈ presences shapes, presence.Fits
  submessages : ∀ shape ∈ shapes, submessageIndex (submessages shapes) shape < 128 ^ 2

section

variable (shapes : List FieldShape) (table : SubmessageTable) (target : Target)

theorem length_plan_records : (plan shapes table target).records.length = shapes.length := by
  have hnumbers := congrArg List.length (map_number_records shapes table target)
  rwa [List.length_map, List.length_map] at hnumbers

/-- The submessages of a plan's records are `submessageIndex` of the shapes. -/
theorem map_submessage_records :
    (plan shapes table target).records.map (·.submessage) = shapes.map (submessageIndex table) := by
  conv => rhs; rw [← placements_map_shape shapes target, List.map_map]
  rw [plan_records, List.map_map]
  rfl

end

variable {shapes : List FieldShape} {target : Target}

theorem offset_le_size {table : SubmessageTable} {record : FieldRecord}
    (h : record ∈ (plan shapes table target).records) : record.offset ≤ (plan shapes table target).size := by
  obtain ⟨entry, hentry, hmade⟩ := List.mem_map.1 (plan_records shapes table target ▸ h)
  have hvalue : spanOf target (entry.1.1, record) ∈ valueSpans target shapes (plan shapes table target) := by
    unfold valueSpans
    rw [zip_plan_records, List.map_map, ← hmade]
    exact List.mem_map_of_mem hentry
  have hinside := (isLaidOut_plan shapes table target).inside _ (List.mem_append_right _ hvalue)
  exact Nat.le_trans (Nat.le_add_right _ _) hinside

/-- A plan `Fits` exactly if `FitsApartFromSize` holds, which says nothing of `target`, and its size is below
`128 ^ 3`. -/
theorem fits_plan_iff : (plan shapes (submessages shapes) target).Fits ↔
    FitsApartFromSize shapes ∧ (plan shapes (submessages shapes) target).size < 128 ^ 3 := by
  have hlength := length_plan_records shapes (submessages shapes) target
  -- The parts of the records are those of the fields, one by one.
  have hnumbers := map_number_records shapes (submessages shapes) target
  have hpresences := map_presence_records shapes (submessages shapes) target
  have hsubmessages := map_submessage_records shapes (submessages shapes) target
  constructor
  · intro h
    refine ⟨?_, h.header.size⟩
    constructor
    case count => exact hlength ▸ h.header.count
    case denseBelow => exact h.header.denseBelow
    case numbers =>
      rw [← List.forall_mem_map (P := (· < FieldRecord.numberLimit)), ← hnumbers, List.forall_mem_map]
      exact fun record hrecord => (h.records record hrecord).number
    case presences =>
      rw [← hpresences, List.forall_mem_map]
      exact fun record hrecord => (h.records record hrecord).presence
    case submessages =>
      rw [← List.forall_mem_map (P := (· < 128 ^ 2)), ← hsubmessages, List.forall_mem_map]
      exact fun record hrecord => (h.records record hrecord).submessage
  · intro h
    obtain ⟨h, hsize⟩ := h
    constructor
    case header =>
      constructor
      case size => exact hsize
      case count => exact hlength ▸ h.count
      case requiredCount => exact Nat.lt_of_le_of_lt List.countP_le_length h.count
      case explicitCount => exact Nat.lt_of_le_of_lt List.countP_le_length h.count
      case denseBelow => exact h.denseBelow
    case records =>
      intro record hrecord
      constructor
      case number =>
        obtain ⟨shape, hshape, hsame⟩ := List.mem_map.1 (hnumbers ▸ List.mem_map_of_mem hrecord)
        exact hsame ▸ h.numbers shape hshape
      case offset => exact Nat.lt_of_le_of_lt (offset_le_size hrecord) hsize
      case presence => exact h.presences _ (hpresences ▸ List.mem_map_of_mem hrecord)
      case submessage =>
        obtain ⟨shape, hshape, hsame⟩ := List.mem_map.1 (hsubmessages ▸ List.mem_map_of_mem hrecord)
        exact hsame ▸ h.submessages shape hshape

/-! ## Values of a single kind -/

/-- All fields are of `kind`, outside of oneofs, without presence, and hold no message. -/
structure IsUniform (kind : StorageKind) (shapes : List FieldShape) : Prop where
  kinds : ∀ shape ∈ shapes, shape.storageKind = kind
  numbers : ∀ shape ∈ shapes, shape.number < FieldRecord.numberLimit
  outside : ∀ shape ∈ shapes, shape.oneofIndex = none
  untracked : ∀ shape ∈ shapes, shape.hasPresence = false
  submessages : ∀ shape ∈ shapes, shape.submessage = none

variable {kind : StorageKind}

/-- The size of a uniform message: `hasBitBytes`, aligned, and a stride for each field. -/
theorem IsUniform.size_eq (h : IsUniform kind shapes) (hsome : shapes ≠ []) (table : SubmessageTable) :
    (plan shapes table target).size =
      alignUp (kind.stride target) (hasBitBytes shapes.length) + kind.stride target * shapes.length := by
  have hkinds : shapes.map (·.storageKind) = List.replicate shapes.length kind :=
    List.map_eq_replicate_iff.2 h.kinds
  have hordered : inStorageOrder id (shapes.map (·.storageKind)) = List.replicate shapes.length kind ++ [] := by
    rw [List.append_nil, hkinds]
    exact List.perm_replicate.1 (inStorageOrder_perm _ _)
  have hslots : slotCount shapes = 0 := by
    refine Nat.le_zero.1 (slotCount_le fun shape hshape index hindex => ?_)
    rw [h.outside shape hshape] at hindex
    cases hindex
  have hplace := congrArg Prod.snd (place_inStorageOrder target shapes)
  rw [hordered, place_replicate, presenceEnd, if_pos hslots,
    if_neg (mt List.length_eq_zero_iff.1 hsome)] at hplace
  exact hplace.symm

/-- A uniform message satisfies `FitsApartFromSize` if its fields can be counted. -/
theorem IsUniform.fitsApartFromSize (h : IsUniform kind shapes) (hcount : shapes.length + 1 < 128 ^ 3) :
    FitsApartFromSize shapes := by
  constructor
  case count => exact Nat.lt_of_succ_lt hcount
  case denseBelow =>
    have hdense := denseBelow_le 1 (shapes.map (·.number))
    rw [List.length_map] at hdense
    omega
  case numbers => exact h.numbers
  case presences =>
    intro presence hpresence
    obtain ⟨place, hplace⟩ := List.mem_iff_getElem?.1 hpresence
    rw [getElem?_presences, Option.map_eq_some_iff] at hplace
    obtain ⟨shape, hshape, rfl⟩ := hplace
    have hmem := List.mem_of_getElem? hshape
    rw [presenceIn, presenceAt, h.outside shape hmem, h.untracked shape hmem]
    trivial
  case submessages =>
    intro shape hshape
    rw [submessageIndex, h.submessages shape hshape]
    show 0 < 128 ^ 2
    decide

/-! ## Messages that are not too large -/

/-- At most 1900 fields and 1900 slots. -/
structure IsOrdinary (shapes : List FieldShape) : Prop where
  fields : shapes.length ≤ 1900
  slots : slotCount shapes ≤ 1900
  numbers : ∀ shape ∈ shapes, shape.number < FieldRecord.numberLimit

/-- The size of an ordinary message is below `128 ^ 3`. -/
theorem IsOrdinary.size_lt (h : IsOrdinary shapes) (table : SubmessageTable) (target : Target) :
    (plan shapes table target).size < 128 ^ 3 := by
  have hsize : (plan shapes table target).size ≤ _ := size_le target shapes
  have hfields := h.fields
  have hslots := h.slots
  simp only [hasBitBytes, slotBytes] at hsize
  omega

/-- The presences of an ordinary message fit. -/
theorem IsOrdinary.fits_presence (h : IsOrdinary shapes) {presence : Presence}
    (hpresence : presence ∈ presences shapes) : presence.Fits := by
  have hfields := h.fields
  have hslots := h.slots
  cases presence with
  | none => trivial
  | hasBit bit =>
    have hbit := hasBit_lt hpresence
    rw [hasBitBytes] at hbit
    show bit < 0x1FFF
    omega
  | oneofSlot offset =>
    obtain ⟨place, hplace⟩ := List.mem_iff_getElem?.1 hpresence
    rw [getElem?_presences, Option.map_eq_some_iff] at hplace
    obtain ⟨shape, hshape, hslot⟩ := hplace
    rw [presenceIn, presenceAt_eq_oneofSlot_iff] at hslot
    obtain ⟨index, hindex, hoffset⟩ := hslot
    have hlt := lt_slotCount (List.mem_of_getElem? hshape) hindex
    -- The slots start less than a slot's width behind the has-bits.
    have halign := alignUp_lt_add (show 0 < slotBytes by decide) (hasBitBytes shapes.length)
    show offset < 0x2000
    simp only [slotStart, slotBytes, hasBitBytes] at halign hoffset
    omega

/-- The plan of an ordinary message `Fits`, on every target. -/
theorem IsOrdinary.fits_plan (h : IsOrdinary shapes) (target : Target) :
    (plan shapes (submessages shapes) target).Fits := by
  have hfields := h.fields
  refine fits_plan_iff.2 ⟨?_, h.size_lt _ _⟩
  constructor
  case count => omega
  case denseBelow =>
    have hdense := denseBelow_le 1 (shapes.map (·.number))
    rw [List.length_map] at hdense
    omega
  case numbers => exact h.numbers
  case presences => exact fun presence hpresence => h.fits_presence hpresence
  case submessages =>
    intro shape _
    have hindex := submessageIndex_le shapes shape
    omega

end SchemaLayout.Placement
