import SchemaLayout.Proofs.Layout.Regions

/-!
# Packed values

Values are packed kind by kind (`IsPacked`): all values of a kind lie below those of the next kinds, and those of one
kind lie side by side in the order of the numbers of their fields. Room is lost in front of the slots and in front of
the values of each kind only, and always less than a slot or a stride there. So a message is not much larger than what
is in it, however many fields it has.
-/

namespace SchemaLayout

/-- `first` comes before `second` in `StorageKind.all`. -/
def StorageKind.Precedes (first second : StorageKind) : Prop :=
  [first, second].Sublist all

instance (first second : StorageKind) : Decidable (first.Precedes second) :=
  inferInstanceAs (Decidable ([first, second].Sublist StorageKind.all))

namespace Placement

/-! ## The room that is lost -/

/-- The bytes that can be lost in front of the values of all kinds. -/
def paddingLimit : Target → Nat
  | .bits64 => 32
  | .bits32 => 24

/-- `paddingLimit` is the sum of `kind.stride target - 1` over all kinds. -/
theorem paddingLimit_eq (target : Target) :
    paddingLimit target = (StorageKind.all.map fun kind => kind.stride target - 1).sum := by
  cases target <;> rfl

theorem presenceEnd_le_add (shapes : List FieldShape) :
    presenceEnd shapes ≤ hasBitBytes shapes.length + 3 + slotBytes * slotCount shapes := by
  have halign := alignUp_lt_add (show 0 < slotBytes by decide) (hasBitBytes shapes.length)
  unfold presenceEnd slotStart
  split
  · omega
  · unfold slotBytes at *
    omega

/-- `regions` take the room of the values, and less than a stride for each kind. -/
theorem regions_stop_le (target : Target) (count : StorageKind → Nat) (kinds : List StorageKind) (cursor : Nat) :
    (regions target count kinds cursor).2 ≤ cursor + (kinds.map fun kind => kind.stride target * count kind).sum +
      (kinds.map fun kind => kind.stride target - 1).sum := by
  induction kinds generalizing cursor with
  | nil => exact Nat.le_refl _
  | cons kind rest ih =>
    have halign := alignUp_lt_add (kind.stride_pos target) cursor
    have hstart : (if count kind = 0 then cursor else alignUp (kind.stride target) cursor) ≤
        cursor + (kind.stride target - 1) := by
      split <;> omega
    have hrest := ih ((if count kind = 0 then cursor else alignUp (kind.stride target) cursor) +
      kind.stride target * count kind)
    simp only [regions, List.map_cons, List.sum_cons]
    omega

/-- A sum over values can be taken kind by kind. -/
theorem sum_map_eq_sum_count (weight : StorageKind → Nat) (kinds : List StorageKind) :
    (kinds.map weight).sum = (StorageKind.all.map fun kind => weight kind * kinds.count kind).sum := by
  induction kinds with
  | nil => rfl
  | cons kind rest ih =>
    rw [List.map_cons, List.sum_cons, ih]
    cases kind <;> simp [StorageKind.all, List.count_cons, Nat.mul_add] <;> omega

/-- The size is at most has-bits, slots and values, 3 bytes and `paddingLimit`. -/
theorem size_le_add_paddingLimit (target : Target) (shapes : List FieldShape) :
    (offsets target shapes).2 ≤ hasBitBytes shapes.length + 3 + slotBytes * slotCount shapes +
      (shapes.map (·.storageKind.stride target)).sum + paddingLimit target := by
  have hpresence := presenceEnd_le_add shapes
  have hregions := regions_stop_le target (shapes.map (·.storageKind)).count StorageKind.all (presenceEnd shapes)
  have hvalues : (shapes.map (·.storageKind.stride target)).sum = (StorageKind.all.map fun kind =>
      kind.stride target * (shapes.map (·.storageKind)).count kind).sum := by
    rw [← sum_map_eq_sum_count (StorageKind.stride target), List.map_map]
    rfl
  rw [offsets_eq, hvalues, paddingLimit_eq]
  show (regions target (shapes.map (·.storageKind)).count StorageKind.all (presenceEnd shapes)).2 ≤ _
  omega

/-! ## Values of one kind -/

theorem getElem?_run {start stride count place offset : Nat} (h : (run start stride count)[place]? = some offset) :
    offset = start + stride * place := by
  induction count generalizing start place with
  | zero => cases h
  | succ count ih =>
    cases place with
    | zero => exact (Option.some.inj h).symm
    | succ place =>
      have hrest := ih h
      rw [Nat.mul_succ]
      omega

section

variable (shapes : List FieldShape) (table : SubmessageTable) (target : Target)

/-- The fields of `kind`, with their records. -/
def ofKind (kind : StorageKind) : List (FieldShape × FieldRecord) :=
  (shapes.zip (plan shapes table target).records).filter (·.1.storageKind = kind)

/-- The offsets of the fields `ofKind` are a `run`. -/
theorem exists_run_ofKind (kind : StorageKind) : ∃ start count,
    (ofKind shapes table target kind).map (·.2.offset) = run start (kind.stride target) count := by
  have hpairs := zip_plan_offsets shapes table target
  have hrun := filter_offsetsFrom target kind (shapes.map (·.storageKind))
    (regions target (shapes.map (·.storageKind)).count StorageKind.all (presenceEnd shapes)).1
  have hoffsets : (offsets target shapes).1 = offsetsFrom target
      (regions target (shapes.map (·.storageKind)).count StorageKind.all (presenceEnd shapes)).1
      (shapes.map (·.storageKind)) := by
    rw [offsets_eq]
  rw [← hoffsets, ← hpairs, List.filter_map, List.map_map] at hrun
  exact ⟨_, _, hrun⟩

/-- The place of a field in `ofKind` says how many strides it is behind the first of them. -/
theorem exists_start_ofKind (kind : StorageKind) : ∃ start, ∀ {place : Nat} {field : FieldShape × FieldRecord},
    (ofKind shapes table target kind)[place]? = some field →
      field.2.offset = start + kind.stride target * place := by
  obtain ⟨start, count, hrun⟩ := exists_run_ofKind shapes table target kind
  refine ⟨start, ?_⟩
  intro place field hfield
  have hplace : (run start (kind.stride target) count)[place]? = some field.2.offset := by
    rw [← hrun, List.getElem?_map, hfield]
    rfl
  exact getElem?_run hplace

theorem pairwise_number_ofKind (hnumbers : shapes.Pairwise fun first second => first.number < second.number)
    (kind : StorageKind) :
    (ofKind shapes table target kind).Pairwise fun first second => first.1.number < second.1.number := by
  have hfirst : (shapes.zip (plan shapes table target).records).map (·.1) = shapes := by
    rw [zip_plan_records, List.map_map]
    exact placements_map_shape shapes target
  unfold ofKind
  apply List.Pairwise.filter
  rw [← hfirst, List.pairwise_map] at hnumbers
  exact hnumbers

/-- Of two fields of a kind without others between them, the second one lies a stride behind the first. -/
theorem offset_eq_of_next (hnumbers : shapes.Pairwise fun first second => first.number < second.number)
    {kind : StorageKind} {first second : FieldShape × FieldRecord}
    (hfirst : first ∈ ofKind shapes table target kind) (hsecond : second ∈ ofKind shapes table target kind)
    (hlt : first.1.number < second.1.number) (hnone : ∀ other ∈ ofKind shapes table target kind,
      ¬(first.1.number < other.1.number ∧ other.1.number < second.1.number)) :
    second.2.offset = first.2.offset + kind.stride target := by
  have hascending := List.pairwise_iff_getElem.1 (pairwise_number_ofKind shapes table target hnumbers kind)
  obtain ⟨start, hstart⟩ := exists_start_ofKind shapes table target kind
  obtain ⟨here, hhere, hfirstPlace⟩ := List.mem_iff_getElem.1 hfirst
  obtain ⟨there, hthere, hsecondPlace⟩ := List.mem_iff_getElem.1 hsecond
  have horder : here < there := by
    by_contra hnot
    rcases Nat.lt_or_eq_of_le (Nat.le_of_not_lt hnot) with hbefore | rfl
    · have hback := hascending there here hthere hhere hbefore
      rw [hfirstPlace, hsecondPlace] at hback
      omega
    · rw [← hfirstPlace, ← hsecondPlace] at hlt
      omega
  -- A field at a place between theirs would have a number between theirs.
  have hnext : there = here + 1 := by
    by_contra hgap
    have hmiddle : here + 1 < (ofKind shapes table target kind).length := by omega
    have hafter := hascending here (here + 1) hhere hmiddle (by omega)
    have hbefore := hascending (here + 1) there hmiddle hthere (by omega)
    rw [hfirstPlace] at hafter
    rw [hsecondPlace] at hbefore
    exact hnone _ (List.getElem_mem hmiddle) ⟨hafter, hbefore⟩
  rw [hstart (List.getElem?_eq_some_iff.2 ⟨hhere, hfirstPlace⟩),
    hstart (List.getElem?_eq_some_iff.2 ⟨hthere, hsecondPlace⟩), hnext, Nat.mul_succ]
  omega

end

/-! ## Plans -/

/-- Values lie kind by kind, those of a kind side by side in the order of their numbers, and little room is
lost. -/
structure IsPacked (shapes : List FieldShape) (target : Target) (plan : LayoutPlan) : Prop where
  /-- There is a record for each field. -/
  numbers : plan.records.map (·.number) = shapes.map (·.number)
  /-- Values of a kind end before those of any later kind start. -/
  kinds : ∀ first ∈ shapes.zip plan.records, ∀ second ∈ shapes.zip plan.records,
    first.1.storageKind.Precedes second.1.storageKind →
      first.2.offset + first.1.storageKind.stride target ≤ second.2.offset
  /-- Where no other field of their kind has a number between theirs, values of a kind lie side by side. -/
  contiguous : ∀ first ∈ shapes.zip plan.records, ∀ second ∈ shapes.zip plan.records,
    first.1.storageKind = second.1.storageKind → first.1.number < second.1.number →
      (∀ other ∈ shapes, other.storageKind = first.1.storageKind →
        ¬(first.1.number < other.number ∧ other.number < second.1.number)) →
      second.2.offset = first.2.offset + first.1.storageKind.stride target
  /-- The message takes the room of its has-bits, slots and values, and not much more. -/
  size : plan.size ≤ hasBitBytes shapes.length + 3 + slotBytes * slotCount shapes +
    (shapes.map (·.storageKind.stride target)).sum + paddingLimit target

/-- `plan` satisfies `IsPacked` if the shapes are in the order of their numbers. -/
theorem isPacked_plan {shapes : List FieldShape}
    (hnumbers : shapes.Pairwise fun first second => first.number < second.number) (table : SubmessageTable)
    (target : Target) : IsPacked shapes target (plan shapes table target) := by
  constructor
  case numbers => exact (isLaidOut_plan shapes table target).numbers
  case kinds =>
    intro first hfirst second hsecond hprecedes
    have hstored := pairwise_stored shapes table target
    unfold inStorageOrder at hstored
    -- In the order of storage, all values of a kind come before those of the kinds behind it.
    have hgroups := (List.pairwise_flatMap.1 hstored).2
    have hbelow := List.pairwise_iff_forall_sublist.1 hgroups hprecedes
    exact hbelow first (List.mem_filter.2 ⟨hfirst, by simp⟩) second (List.mem_filter.2 ⟨hsecond, by simp⟩)
  case contiguous =>
    intro first hfirst second hsecond hkind hlt hnone
    have hfirstMem : first ∈ ofKind shapes table target first.1.storageKind :=
      List.mem_filter.2 ⟨hfirst, by simp⟩
    have hsecondMem : second ∈ ofKind shapes table target first.1.storageKind :=
      List.mem_filter.2 ⟨hsecond, by simp [hkind]⟩
    apply offset_eq_of_next shapes table target hnumbers hfirstMem hsecondMem hlt
    intro other hother
    obtain ⟨hmem, hsame⟩ := List.mem_filter.1 hother
    exact hnone other.1 (List.of_mem_zip hmem).1 (by simpa using hsame)
  case size => exact size_le_add_paddingLimit target shapes

/-- For at most 2²⁶ fields and oneofs, `checkedPlan` on words of 32 bits finds the plan of `layout`, and it
satisfies `IsPacked`. -/
theorem layout_isPacked {shapes : List FieldShape}
    (hnumbers : shapes.Pairwise fun first second => first.number < second.number) (hcount : shapes.length ≤ 2 ^ 26)
    (honeofs : ∀ shape ∈ shapes, ∀ index, shape.oneofIndex = some index → index < 2 ^ 26) (target : Target) :
    checkedPlan shapes (submessages shapes) target = some ((layout shapes).plans.get target) ∧
      IsPacked shapes target ((layout shapes).plans.get target) := by
  have hget : (layout shapes).plans.get target = plan shapes (submessages shapes) target :=
    PerTarget.get_ofTarget _ target
  rw [hget]
  exact ⟨checkedPlan_submessages hcount honeofs target, isPacked_plan hnumbers (submessages shapes) target⟩

/-- A flag, a slot, and then a value of each kind, in front of each of which as much room is lost as can be. -/
theorem layout_isPacked_loose :
    let shapes := [(FieldShape.scalar 1 .bool).inOneof 0, .scalar 2 .int32, .scalar 3 .string, .scalar 4 .int64,
      .scalar 6 .bytes]
    let plan := (layout shapes).plans.get .bits32
    shapes.Pairwise (fun first second => first.number < second.number) ∧ shapes.length ≤ 2 ^ 26 ∧
      (∀ shape ∈ shapes, ∀ index, shape.oneofIndex = some index → index < 2 ^ 26) ∧
      checkedPlan shapes (submessages shapes) .bits32 = some plan ∧ IsPacked shapes .bits32 plan ∧
      plan.records.map (·.offset) = [8, 12, 24, 16, 36] ∧ plan.size = 48 := by
  intro shapes plan
  have hnumbers : shapes.Pairwise fun first second => first.number < second.number := by decide
  have hcount : shapes.length ≤ 2 ^ 26 := by decide
  have honeofs : ∀ shape ∈ shapes, ∀ index, shape.oneofIndex = some index → index < 2 ^ 26 := by decide
  obtain ⟨hplan, hpacked⟩ := layout_isPacked hnumbers hcount honeofs .bits32
  exact ⟨hnumbers, hcount, honeofs, hplan, hpacked, by decide, by decide⟩

end Placement

end SchemaLayout
