import SchemaLayout.Proofs.Data.OrderedMap
import SchemaLayout.Proofs.Layout.Span

/-!
# Indices of submessages

Types get their indices when fields that refer to them are met for the first time, and what is in the table stays
there. So in the end every type that a field refers to has an index, namely the one it had when the field was met
(`index?_collect_eq_submessageIndex`), and since the count begins with one, a field has the index zero only if it holds
no message (`submessageIndex_ne_zero_iff`). No index is greater than the number of fields (`submessageIndex_le`).
-/

namespace SchemaLayout

namespace SubmessageTable

/-- The table has at most `count` entries, with indices from 1 to `count`. -/
structure IsCounted (table : SubmessageTable) (count : Nat) : Prop where
  size : table.size ≤ count
  index : ∀ typeName known, table.find? typeName = some known → 0 < known.index ∧ known.index ≤ count

theorem isCounted_empty : IsCounted .empty 0 where
  size := Nat.le_refl 0
  index typeName known hknown := by
    rw [OrderedMap.find?_empty] at hknown
    cases hknown

variable {table : SubmessageTable} {count : Nat}

theorem IsCounted.succ (h : table.IsCounted count) : table.IsCounted (count + 1) where
  size := Nat.le_succ_of_le h.size
  index typeName known hknown := by
    obtain ⟨hpositive, hle⟩ := h.index typeName known hknown
    exact ⟨hpositive, Nat.le_succ_of_le hle⟩

theorem IsCounted.collect (h : table.IsCounted count) (ref : SubmessageRef) (number : Nat) :
    (table.collect ref number).IsCounted (count + 1) := by
  have hsize := h.size
  constructor
  case size =>
    have hupdate := OrderedMap.size_update_le table ref.typeName
    exact Nat.le_trans (hupdate _) (Nat.succ_le_succ hsize)
  case index =>
    intro typeName known hknown
    unfold SubmessageTable.collect at hknown
    rw [OrderedMap.find?_update] at hknown
    by_cases hname : ref.typeName = typeName
    · rw [if_pos hname] at hknown
      cases hbefore : table.find? ref.typeName with
      -- A new type is counted by the size of the table, up to the last index.
      | none =>
        rw [hbefore] at hknown
        cases hknown
        show 0 < min (table.size + 1) maxIndex ∧ min (table.size + 1) maxIndex ≤ count + 1
        unfold maxIndex
        omega
      | some before =>
        rw [hbefore] at hknown
        cases hknown
        show 0 < before.index ∧ before.index ≤ count + 1
        exact h.succ.index _ _ hbefore
    · rw [if_neg hname] at hknown
      exact h.succ.index _ _ hknown

/-- After `collect`, the table has the type of the field and all that it had. -/
theorem isSome_find?_collect (ref : SubmessageRef) (number : Nat) {typeName : String}
    (h : ref.typeName = typeName ∨ (table.find? typeName).isSome = true) :
    ((table.collect ref number).find? typeName).isSome = true := by
  unfold collect
  rw [OrderedMap.find?_update]
  by_cases hname : ref.typeName = typeName
  · rw [if_pos hname, Option.isSome_some]
  · rw [if_neg hname]
    exact h.resolve_left hname

/-- `collect` leaves the indices of the types that the table has. -/
theorem index?_collect (ref : SubmessageRef) (number : Nat) {typeName : String} {index : Nat}
    (h : table.index? typeName = some index) : (table.collect ref number).index? typeName = some index := by
  unfold index? collect at *
  rw [OrderedMap.find?_update]
  by_cases hname : ref.typeName = typeName
  · obtain ⟨known, hknown, rfl⟩ := Option.map_eq_some_iff.1 h
    rw [if_pos hname, hname, hknown]
    rfl
  · rwa [if_neg hname]

end SubmessageTable

namespace Placement

/-- The table with the type that a field refers to, if it refers to one. -/
def note (table : SubmessageTable) (shape : FieldShape) : SubmessageTable :=
  match shape.submessage with
  | some ref => table.collect ref shape.number
  | none => table

theorem isCounted_note {table : SubmessageTable} {count : Nat} (h : table.IsCounted count) (shape : FieldShape) :
    (note table shape).IsCounted (count + 1) := by
  unfold note
  split
  · exact h.collect _ _
  · exact h.succ

/-- `note` for each of `shapes` keeps `IsCounted`. -/
theorem isCounted_foldl_note (shapes : List FieldShape) {table : SubmessageTable} {count : Nat}
    (h : table.IsCounted count) : (shapes.foldl note table).IsCounted (count + shapes.length) := by
  induction shapes generalizing table count with
  | nil => exact h
  | cons shape rest ih =>
    have hrest := ih (isCounted_note h shape)
    rwa [Nat.add_assoc, Nat.add_comm 1] at hrest

/-- The table has the type that a field refers to, if it refers to one. -/
def Knows (table : SubmessageTable) (shape : FieldShape) : Prop :=
  ∀ ref, shape.submessage = some ref → (table.find? ref.typeName).isSome = true

theorem knows_note (table : SubmessageTable) (shape : FieldShape) : Knows (note table shape) shape := by
  intro ref href
  unfold note
  rw [href]
  exact SubmessageTable.isSome_find?_collect ref shape.number (Or.inl rfl)

/-- `note` keeps what the table `Knows`. -/
theorem Knows.note {table : SubmessageTable} {shape : FieldShape} (h : Knows table shape)
    (other : FieldShape) : Knows (note table other) shape := by
  intro ref href
  unfold Placement.note
  split
  · exact SubmessageTable.isSome_find?_collect _ _ (Or.inr (h ref href))
  · exact h ref href

/-- After `note` for each of `shapes`, the table `Knows` all of them. -/
theorem knows_foldl_note {shapes : List FieldShape} {shape : FieldShape} (h : shape ∈ shapes)
    (table : SubmessageTable) : Knows (shapes.foldl note table) shape := by
  obtain ⟨before, behind, rfl⟩ := List.append_of_mem h
  rw [List.foldl_append, List.foldl_cons]
  exact List.foldlRecOn behind note (motive := (Knows · shape)) (knows_note _ shape)
    fun _ htable other _ => htable.note other

/-- Once a type has an `index?`, `note` keeps it to the end. -/
theorem index?_foldl_note (shapes : List FieldShape) {table : SubmessageTable} {typeName : String} {index : Nat}
    (h : table.index? typeName = some index) : (shapes.foldl note table).index? typeName = some index := by
  refine List.foldlRecOn shapes note (motive := (·.index? typeName = some index)) h fun table htable shape _ => ?_
  unfold note
  split
  · exact SubmessageTable.index?_collect _ _ htable
  · exact htable

theorem byStorage_perm (shapes : List FieldShape) : (byStorage shapes).Perm shapes :=
  inStorageOrder_perm FieldShape.storageKind shapes

/-- The index that `submessageIndex` finds in the finished table is the one that the type has when `collect` has
just met the field. -/
theorem index?_collect_eq_submessageIndex {shapes before behind : List FieldShape} {shape : FieldShape}
    (hplaced : byStorage shapes = before ++ shape :: behind) {ref : SubmessageRef}
    (href : shape.submessage = some ref) :
    ((before.foldl note .empty).collect ref shape.number).index? ref.typeName =
      some (submessageIndex (submessages shapes) shape) := by
  -- The fields behind this one are noted on top of what is collected for it.
  have htable : submessages shapes =
      behind.foldl note ((before.foldl note .empty).collect ref shape.number) := by
    have hnote : note (before.foldl note .empty) shape = (before.foldl note .empty).collect ref shape.number := by
      rw [note, href]
    rw [← hnote, ← List.foldl_cons, ← List.foldl_append, ← hplaced]
    rfl
  obtain ⟨known, hknown⟩ :
      ∃ known, ((before.foldl note .empty).collect ref shape.number).find? ref.typeName = some known :=
    Option.isSome_iff_exists.1 (SubmessageTable.isSome_find?_collect ref shape.number (Or.inl rfl))
  have hmet : ((before.foldl note .empty).collect ref shape.number).index? ref.typeName = some known.index := by
    rw [SubmessageTable.index?, hknown]
    rfl
  have hkept := index?_foldl_note behind hmet
  rw [← htable] at hkept
  rw [hmet, submessageIndex, href, Option.bind_some, hkept]
  rfl

/-- There are no more `submessages` than fields. -/
theorem isCounted_submessages (shapes : List FieldShape) : (submessages shapes).IsCounted shapes.length := by
  have hcounted := isCounted_foldl_note (byStorage shapes) SubmessageTable.isCounted_empty
  rwa [Nat.zero_add, (byStorage_perm shapes).length_eq] at hcounted

/-- `submessageIndex` is at most the number of fields. -/
theorem submessageIndex_le (shapes : List FieldShape) (shape : FieldShape) :
    submessageIndex (submessages shapes) shape ≤ shapes.length := by
  unfold submessageIndex
  cases href : shape.submessage with
  | none => exact Nat.zero_le _
  | some ref =>
    rw [Option.bind_some, SubmessageTable.index?]
    cases hknown : (submessages shapes).find? ref.typeName with
    | none => exact Nat.zero_le _
    | some known => exact ((isCounted_submessages shapes).index _ _ hknown).2

/-- `submessageIndex` is 0 for exactly the fields without a submessage. -/
theorem submessageIndex_ne_zero_iff {shapes : List FieldShape} {shape : FieldShape} (h : shape ∈ shapes) :
    submessageIndex (submessages shapes) shape ≠ 0 ↔ shape.submessage.isSome = true := by
  have hknows : Knows (submessages shapes) shape :=
    knows_foldl_note ((byStorage_perm shapes).mem_iff.2 h) .empty
  unfold submessageIndex
  cases href : shape.submessage with
  | none => simp
  | some ref =>
    obtain ⟨known, hknown⟩ := Option.isSome_iff_exists.1 (hknows ref href)
    have hindex := ((isCounted_submessages shapes).index _ _ hknown).1
    simp only [Option.bind_some, SubmessageTable.index?, hknown, Option.map_some, Option.getD_some,
      Option.isSome_some, iff_true]
    omega

end Placement

end SchemaLayout
